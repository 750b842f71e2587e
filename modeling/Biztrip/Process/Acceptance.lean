import Biztrip.Desk.Companions
import Biztrip.Desk.Totals
import Biztrip.Process.Simulation

/-!
# What the desk accepts

`Ready` is what the process does not know of a request: its arguments, the clock, and of the rows
what a submission looks at. In every state that the system leads to (`Sane`), a
request for a move is accepted if the process allows it and the request is ready, and
never otherwise: no further check stands in the way.
-/

namespace Biztrip.Process

open Biztrip.Lib Biztrip.Desk Trips Expenses

/-- A reason that a rejection takes. -/
def GivesReason (reason : String) : Prop := strip reason ≠ "" ∧ IsText (strip reason)

/-- A report number is left for the day. -/
def NumberLeft (s : Store) (today : Date) : Prop :=
  ∃ no, Numbering.nextReportNo s today = .ok no ∧
    ∀ j r, s.reports.get j = some r → r.reportNo ≠ no

/-- Both centers are set and active, and something is to be reimbursed. -/
structure Claimable (s : Store) (j : Int) (r : ExpenseReport) : Prop where
  present : blank r.fundCenterCode = false ∧ blank r.costCenterCode = false
  fund : Centers.assertFundCenter s r.fundCenterCode = .ok ()
  cost : Centers.assertCostCenter s r.costCenterCode = .ok ()
  items : 0 < includedCount s j

def Ready (s : Store) (env : Env) : DeskCall → Prop
  | .trip (.submit i) | .trip (.approve i) | .trip (.reopen i) | .trip (.delete i) => IsInt4 i
  | .trip (.reject i payload) => IsInt4 i ∧ GivesReason payload.reason
  | .trip (.complete i) => IsInt4 i ∧ ∀ t, s.trips.get i = some t → t.endDate < env.today
  | .expense (.create payload) => IsInt4 payload.tripId ∧ NumberLeft s env.utcToday
  | .expense (.submit j) => IsInt4 j ∧ ∀ r, s.reports.get j = some r → Claimable s j r
  | .expense (.approve j) | .expense (.reopen j) => IsInt4 j
  | .expense (.reject j payload) => IsInt4 j ∧ GivesReason payload.reason
  | _ => True

/-- What the states of all runs have in common. -/
structure Sane (s : Store) : Prop where
  whole : Whole s
  exact : Exact s
  agrees : Agrees s

variable {s s' : Store} {env : Env} {user : CurrentUser} {i j : Int} {t t' : Trip}
  {r r' : ExpenseReport} {c : Case} {now : Instant}

theorem assertRejectReason_eq_ok {reason text : String} :
    assertRejectReason (some reason) = .ok text ↔ strip reason ≠ "" ∧ text = strip reason := by
  simp only [assertRejectReason, Option.getD_some, bind_eq_ok, guardE_eq_ok, exists_const,
    pure_eq_ok, Except.ok.injEq]
  exact and_congr_right fun _ => eq_comm

theorem GivesReason.assert {reason : String} (h : GivesReason reason) :
    assertRejectReason (some reason) = .ok (strip reason) :=
  assertRejectReason_eq_ok.mpr ⟨h.1, rfl⟩

theorem GivesReason.text {reason : String} (h : GivesReason reason) :
    Biztrip.text "reject_reason" (strip reason) = .ok () := guardE_eq_ok.mpr h.2

/-! ## Committing what has been planned -/

/-- A plan on the rows as they are is committed. -/
theorem trip_commits {entity : EntityRef} {tr : Transition} (ht : s.trips.get i = some t) :
    ∃ s', (Write.trip (.update i t t') :: recordTransition env .trip entity tr).foldlM
      (Store.flush now) s = .ok s' := by
  obtain ⟨u, hflush⟩ : ∃ u, s.flush now (.trip (.update i t t')) = .ok { s with trips := u } :=
    Store.flush_trip_loaded ht
  exact ⟨_, by rw [List.foldlM_cons, hflush, ok_bind, Store.flush_history]⟩

theorem report_commits (env : Env) {entity : EntityRef} {tr : Transition}
    (hj : s.reports.get j = some r) :
    ∃ s', (Write.report (.update j r r') ::
      recordTransition env .expenseReport entity tr).foldlM (Store.flush now) s = .ok s' ∧
        s'.trips = s.trips := by
  obtain ⟨u, hflush⟩ : ∃ u, s.flush now (.report (.update j r r')) = .ok { s with reports := u } :=
    Store.flush_report_loaded hj
  refine ⟨Store.record { s with reports := u } env .expenseReport entity tr, ?_, rfl⟩
  rw [List.foldlM_cons, hflush, ok_bind, Store.flush_history]

theorem insert_commits {entity : EntityRef} {tr : Transition}
    (hcheck : s.check (.report (.insert r)) = .ok ()) :
    ∃ s', (Write.report (.insert r) :: recordTransition env .expenseReport entity tr).foldlM
      (Store.flush now) s = .ok s' := by
  have hflush : s.flush now (.report (.insert r)) = .ok { s with reports := s.reports.insert r } :=
    bind_eq_ok.mpr ⟨(), hcheck, rfl⟩
  exact ⟨_, by rw [List.foldlM_cons, hflush, ok_bind, Store.flush_history]⟩

theorem accepts_of_commit (call : DeskCall) {p : Plan}
    (huser : s.users.get user.id = some user.toUser) (hp : call.plan s env user = .ok p)
    (hc : ∃ s', p.writes.foldlM (Store.flush p.now) s = .ok s') :
    ∃ s', desk.step s ⟨env, user.id, call⟩ = .ok s' := by
  obtain ⟨s', hc⟩ := hc
  refine ⟨s', bind_eq_ok.mpr ⟨p, ?_, Plan.commit_eq_ok.mpr hc⟩⟩
  exact bind_eq_ok.mpr ⟨user, currentUser_eq_ok.mpr ⟨huser, rfl⟩, hp⟩

/-- A transition of a trip whose own checks pass. -/
theorem accepts_trip (call : TripCall) {target : TripStatus} {change : Trip → Result Trips.Change}
    (huser : s.users.get user.id = some user.toUser)
    (hplan : call.plan s env user = Trips.transition s env user i target change)
    (load : loadVisibleTrip s i user = .ok t)
    (may : MayTransition t.status target user.id t.userId t.approverId)
    (hch : ∃ ch, change t = .ok ch) : ∃ s', desk.step s ⟨env, user.id, .trip call⟩ = .ok s' := by
  obtain ⟨ch, hch⟩ := hch
  have hget := (loadVisibleTrip_eq_ok.mp load).2.1
  rw [Trips.transition, load, ok_bind, assertTransitionAllowed_eq_ok (u := ()).mpr may, ok_bind,
    hch, ok_bind] at hplan
  exact accepts_of_commit (.trip call) huser hplan (trip_commits hget)

/-- A transition of a report, with which its trip may be settled. -/
theorem accepts_report (call : ExpenseCall) {target : ExpenseReportStatus}
    {change : ExpenseReport → Result Expenses.Change}
    (huser : s.users.get user.id = some user.toUser)
    (hplan : call.plan s env user = Expenses.transition s env user j target change)
    (load : loadVisibleReport s j user = .ok r)
    (may : MayTransitionReport r.status target user.id r.userId r.approverId)
    (hch : ∃ ch, change r = .ok ch ∧ ∀ s', s'.trips = s.trips →
      ∃ s'', ch.after.foldlM (Store.flush env.txnNow) s' = .ok s'') :
    ∃ s', desk.step s ⟨env, user.id, .expense call⟩ = .ok s' := by
  obtain ⟨ch, hch, hafter⟩ := hch
  have hget := (loadVisibleReport_eq_ok.mp load).2.1
  rw [Expenses.transition, load, ok_bind, assertExpenseTransitionAllowed_eq_ok (u := ()).mpr may,
    ok_bind, hch, ok_bind] at hplan
  refine accepts_of_commit (.expense call) huser hplan ?_
  obtain ⟨s₁, hc, htrips⟩ := report_commits env hget
  obtain ⟨s₂, hc'⟩ := hafter s₁ htrips
  refine ⟨s₂, ?_⟩
  rw [List.foldlM_append, hc]
  exact hc'

/-! ## What the process allows -/

/-- An act that the process allows, as the row of the trip shows it. -/
structure TripAct (s : Store) (user : CurrentUser) (i : Int) (a : Act) (t : Trip) (p : Phase) :
    Prop where
  get : s.trips.get i = some t
  status : t.status = p.trip
  report : (reportOf s i).map ExpenseReport.status = p.report?
  on : Case.On ⟨t.userId, t.approverId, p⟩ user.id a.side
  next : (p.next a).isSome
  approver : (Case.approverAfter ⟨t.userId, t.approverId, p⟩ user.managerId a).isSome

theorem tripAct_of_step {a : Act} {w : Cases}
    (h : step (caseOf s) ⟨user.id, user.managerId, i, .act a⟩ = some w) :
    ∃ t p, TripAct s user i a t p := by
  obtain ⟨c, c', hc, hact, -⟩ := step_act_eq_some.mp h
  obtain ⟨t, ht, hstatus, hreport, hcase⟩ := caseOf_eq_some.mp hc
  obtain ⟨hon, hnext, happrover, -⟩ := act_eq_some.mp hact
  rw [hcase] at hon happrover
  exact ⟨t, c.phase, ht, hstatus.symm, hreport.symm, hon, by rw [hnext]; rfl,
    by rw [happrover]; rfl⟩

theorem TripAct.load_owner {a : Act} {p : Phase} (h : TripAct s user i a t p)
    (hside : a.side = .owner) (hi : IsInt4 i) :
    loadVisibleTrip s i user = .ok t ∧ user.id = t.userId := by
  have hon := h.on
  rw [hside] at hon
  have howner : user.id = t.userId := Eq.symm hon
  exact ⟨loadVisibleTrip_eq_ok.mpr ⟨hi, h.get, by simp [canViewTrip, howner]⟩, howner⟩

theorem TripAct.load_approver {a : Act} {p : Phase} (h : TripAct s user i a t p)
    (hside : a.side = .approver) (hi : IsInt4 i) :
    loadVisibleTrip s i user = .ok t ∧ t.approverId = some user.id := by
  have hon := h.on
  rw [hside] at hon
  have happrover : t.approverId = some user.id := hon
  exact ⟨loadVisibleTrip_eq_ok.mpr ⟨hi, h.get, by simp [canViewTrip, happrover]⟩, happrover⟩

theorem accepts_submit (h : Sane s) (huser : s.users.get user.id = some user.toUser) {p : Phase}
    (hact : TripAct s user i .submit t p) (hi : IsInt4 i) :
    ∃ s', desk.step s ⟨env, user.id, .trip (.submit i)⟩ = .ok s' := by
  obtain ⟨load, owner⟩ := hact.load_owner rfl hi
  obtain rfl : p = .drafted := Phase.of_next hact.next
  obtain ⟨_, happrover⟩ := Option.isSome_iff_exists.mp hact.approver
  obtain ⟨m, hm, -⟩ := Option.map_eq_some_iff.mp happrover
  have hrange := date_le_iff.mp (h.agrees.trip i t hact.get).dates
  refine accepts_trip (.submit i) huser rfl load (hact.status ▸ owner) ?_
  rw [assertDateRange, hm]
  exact ⟨_, bind_eq_ok.mpr ⟨(), guardE_eq_ok.mpr hrange, rfl⟩⟩

theorem accepts_approve (huser : s.users.get user.id = some user.toUser) {p : Phase}
    (hact : TripAct s user i .approve t p) (hi : IsInt4 i) :
    ∃ s', desk.step s ⟨env, user.id, .trip (.approve i)⟩ = .ok s' := by
  obtain ⟨load, approver⟩ := hact.load_approver rfl hi
  obtain rfl : p = .submitted := Phase.of_next hact.next
  exact accepts_trip (.approve i) huser rfl load (hact.status ▸ approver) ⟨_, rfl⟩

theorem accepts_reject (huser : s.users.get user.id = some user.toUser) {p : Phase}
    {payload : RejectRequest} (hact : TripAct s user i .reject t p) (hi : IsInt4 i)
    (hreason : GivesReason payload.reason) :
    ∃ s', desk.step s ⟨env, user.id, .trip (.reject i payload)⟩ = .ok s' := by
  obtain ⟨load, approver⟩ := hact.load_approver rfl hi
  obtain rfl : p = .submitted := Phase.of_next hact.next
  refine accepts_trip (.reject i payload) huser rfl load (hact.status ▸ approver) ?_
  rw [hreason.assert, ok_bind, hreason.text, ok_bind]
  exact ⟨_, rfl⟩

theorem accepts_reopen (huser : s.users.get user.id = some user.toUser) {p : Phase}
    (hact : TripAct s user i .reopen t p) (hi : IsInt4 i) :
    ∃ s', desk.step s ⟨env, user.id, .trip (.reopen i)⟩ = .ok s' := by
  obtain ⟨load, owner⟩ := hact.load_owner rfl hi
  obtain rfl : p = .rejected := Phase.of_next hact.next
  exact accepts_trip (.reopen i) huser rfl load (hact.status ▸ owner) ⟨_, rfl⟩

theorem accepts_complete (huser : s.users.get user.id = some user.toUser) {p : Phase}
    (hact : TripAct s user i .complete t p) (hi : IsInt4 i) (hended : t.endDate < env.today) :
    ∃ s', desk.step s ⟨env, user.id, .trip (.complete i)⟩ = .ok s' := by
  obtain ⟨load, owner⟩ := hact.load_owner rfl hi
  obtain ⟨begun, rfl⟩ := Phase.of_next hact.next
  refine accepts_trip (.complete i) huser rfl load (hact.status ▸ owner) ?_
  exact ⟨_, bind_eq_ok.mpr ⟨(), guardE_eq_ok.mpr hended, rfl⟩⟩

/-! ## Acts on the report -/

/-- An act that the process allows on the report of a trip. -/
structure ReportAct (s : Store) (user : CurrentUser) (j : Int) (a : Act) (r : ExpenseReport)
    (t : Trip) (p : Phase) : Prop where
  get : s.reports.get j = some r
  trip : TripAct s user r.tripId a t p
  matched : Matches r t
  status : p.report? = some r.status

theorem reportAct_of_step (h : Coupled s) {a : Act} {m : Int × Move} {w : Cases}
    (hm : onReport s j a = some m)
    (hstep : step (caseOf s) ⟨user.id, user.managerId, m.1, m.2⟩ = some w) :
    ∃ r t p, ReportAct s user j a r t p := by
  obtain ⟨r, hj, rfl⟩ := Option.map_eq_some_iff.mp hm
  obtain ⟨t, p, hact⟩ := tripAct_of_step hstep
  obtain ⟨t₀, ht₀, hmatched⟩ := h.report j r hj
  obtain rfl : t₀ = t := Option.some.inj (ht₀.symm.trans hact.get)
  refine ⟨r, t₀, p, hj, hact, hmatched, ?_⟩
  rw [← hact.report, (reportOf_eq_some h).mpr ⟨j, hj, rfl⟩]
  rfl

theorem ReportAct.load_owner {a : Act} {p : Phase} (h : ReportAct s user j a r t p)
    (hside : a.side = .owner) (hj : IsInt4 j) :
    loadVisibleReport s j user = .ok r ∧ user.id = r.userId := by
  have hon := h.trip.on
  rw [hside] at hon
  have howner : user.id = r.userId := (h.matched.userId.trans hon).symm
  exact ⟨loadVisibleReport_eq_ok.mpr ⟨hj, h.get, by simp [canViewReport, howner]⟩, howner⟩

theorem ReportAct.load_approver {a : Act} {p : Phase} (h : ReportAct s user j a r t p)
    (hside : a.side = .approver) (hj : IsInt4 j) :
    loadVisibleReport s j user = .ok r ∧ r.approverId = some user.id := by
  have hon := h.trip.on
  rw [hside] at hon
  have happrover : r.approverId = some user.id := h.matched.approverId.trans hon
  exact ⟨loadVisibleReport_eq_ok.mpr ⟨hj, h.get, by simp [canViewReport, happrover]⟩, happrover⟩

/-- The sum of the items has fitted its column before. -/
theorem Sane.recalcTotal (h : Sane s) (hj : s.reports.get j = some r) :
    ∃ total, Expenses.recalcTotal s j = .ok total := by
  have htotal := h.exact.total j r hj
  have hbound := r.totalAmountKrw.bound
  have hle : ¬ maxReportTotal.coeff < includedTotal s j := by
    rw [← htotal]
    show ¬ (99999999999999 : Int) < _
    omega
  refine ⟨r.totalAmountKrw, bind_eq_ok.mpr ⟨(), guardE_eq_ok.mpr hle, getE_eq_ok.mpr ?_⟩⟩
  exact Numeric.ofUnits?_eq_some.mpr htotal

theorem accepts_claim (h : Sane s) (huser : s.users.get user.id = some user.toUser) {p : Phase}
    (hact : ReportAct s user j .claim r t p) (hj : IsInt4 j) (hclaim : Claimable s j r) :
    ∃ s', desk.step s ⟨env, user.id, .expense (.submit j)⟩ = .ok s' := by
  obtain ⟨load, owner⟩ := hact.load_owner rfl hj
  obtain rfl : p = .reporting := Phase.of_next hact.trip.next
  obtain ⟨total, htotal⟩ := h.recalcTotal hact.get
  have hcompleted : t.status = .completed := hact.trip.status
  obtain ⟨m, hm⟩ := Option.ne_none_iff_exists'.mp
    (h.whole.coupled.approver _ _ hact.trip.get (by rw [hcompleted]; nofun))
  have hdraft := Option.some.inj hact.status
  refine accepts_report (.submit j) huser rfl load (hdraft ▸ owner) ?_
  have htrip : tripOf s r = .ok t := getE_eq_ok.mpr hact.trip.get
  have hpresent : assertCentersPresent r.fundCenterCode r.costCenterCode = .ok () :=
    bind_eq_ok.mpr ⟨(), guardE_eq_ok.mpr hclaim.present.1, guardE_eq_ok.mpr hclaim.present.2⟩
  have hitems : assertHasItems (includedCount s j) = .ok () := guardE_eq_ok.mpr hclaim.items
  have hdone : assertTripCompleted t.status = .ok () := guardE_eq_ok.mpr hcompleted
  have happrover : assertHasApprover t.approverId = .ok m := getE_eq_ok.mpr hm
  rw [htrip, ok_bind, hdone, ok_bind, hpresent, ok_bind, hclaim.fund, ok_bind, hclaim.cost,
    ok_bind, hitems, ok_bind, htotal, ok_bind, happrover, ok_bind]
  exact ⟨_, rfl, fun s' _ => ⟨s', rfl⟩⟩

theorem accepts_settle (huser : s.users.get user.id = some user.toUser) {p : Phase}
    (hact : ReportAct s user j .settle r t p) (hj : IsInt4 j) :
    ∃ s', desk.step s ⟨env, user.id, .expense (.approve j)⟩ = .ok s' := by
  obtain ⟨load, approver⟩ := hact.load_approver rfl hj
  obtain rfl : p = .claimed := Phase.of_next hact.trip.next
  have hsubmitted := Option.some.inj hact.status
  have hcompleted : t.status = .completed := hact.trip.status
  refine accepts_report (.approve j) huser rfl load (hsubmitted ▸ approver) ?_
  have htrip : tripOf s r = .ok t := getE_eq_ok.mpr hact.trip.get
  have hsystem : assertSystemTransition t.status .settled = .ok () :=
    assertSystemTransition_eq_ok.mpr ⟨hcompleted, rfl⟩
  rw [htrip, ok_bind, settleTripForReport, hsystem, ok_bind]
  exact ⟨_, rfl, fun s' htrips => trip_commits (htrips ▸ hact.trip.get)⟩

theorem accepts_dispute (huser : s.users.get user.id = some user.toUser) {p : Phase}
    {payload : RejectRequest} (hact : ReportAct s user j .dispute r t p) (hj : IsInt4 j)
    (hreason : GivesReason payload.reason) :
    ∃ s', desk.step s ⟨env, user.id, .expense (.reject j payload)⟩ = .ok s' := by
  obtain ⟨load, approver⟩ := hact.load_approver rfl hj
  obtain rfl : p = .claimed := Phase.of_next hact.trip.next
  have hsubmitted := Option.some.inj hact.status
  refine accepts_report (.reject j payload) huser rfl load (hsubmitted ▸ approver) ?_
  have htrip : tripOf s r = .ok t := getE_eq_ok.mpr hact.trip.get
  rw [hreason.assert, ok_bind, htrip, ok_bind, hreason.text, ok_bind]
  exact ⟨_, rfl, fun s' _ => ⟨s', rfl⟩⟩

theorem accepts_revise (huser : s.users.get user.id = some user.toUser) {p : Phase}
    (hact : ReportAct s user j .revise r t p) (hj : IsInt4 j) :
    ∃ s', desk.step s ⟨env, user.id, .expense (.reopen j)⟩ = .ok s' := by
  obtain ⟨load, owner⟩ := hact.load_owner rfl hj
  obtain rfl : p = .disputed := Phase.of_next hact.trip.next
  have hrejected := Option.some.inj hact.status
  refine accepts_report (.reopen j) huser rfl load (hrejected ▸ owner) ?_
  exact ⟨_, rfl, fun s' _ => ⟨s', rfl⟩⟩

/-! ## Dropping a draft and beginning a report -/

theorem no_report (h : Coupled s) (hnone : reportOf s i = none) :
    Store.referenced s.reports ExpenseReport.tripId i = false := by
  refine Store.taken_eq_false.mpr fun j r hr _ htrip => ?_
  rw [(reportOf_eq_some h).mpr ⟨j, hr, htrip⟩] at hnone
  cases hnone

theorem accepts_drop (h : Sane s) (huser : s.users.get user.id = some user.toUser) {w : Cases}
    (hstep : step (caseOf s) ⟨user.id, user.managerId, i, .drop⟩ = some w) (hi : IsInt4 i) :
    ∃ s', desk.step s ⟨env, user.id, .trip (.delete i)⟩ = .ok s' := by
  obtain ⟨c, hc, howner, hphase, -⟩ := step_drop_eq_some.mp hstep
  obtain ⟨t, ht, hstatus, hreport, hcase⟩ := caseOf_eq_some.mp hc
  rw [hphase] at hstatus hreport
  have hown : user.id = t.userId := by rw [← howner, hcase]
  have load : loadVisibleTrip s i user = .ok t :=
    loadVisibleTrip_eq_ok.mpr ⟨hi, ht, by simp [canViewTrip, hown]⟩
  have hfree := no_report h.whole.coupled (Option.map_eq_none_iff.mp hreport.symm)
  have hplan : deleteTrip s env user i = .ok ⟨env.txnNow, [.trip (.delete i)], none⟩ := by
    have hdeletable : assertDeletable t.status = .ok () :=
      guardE_eq_ok.mpr (hstatus ▸ List.mem_singleton_self _)
    rw [deleteTrip, load, ok_bind, assertTripOwner, guardE_eq_ok (a := ()).mpr hown, ok_bind,
      hdeletable]
    rfl
  have hcheck : s.check (.trip (.delete i)) = .ok () :=
    Store.foreignKey_eq_ok.mpr (by rw [hfree]; rfl)
  refine accepts_of_commit (.trip (.delete i)) huser hplan
    ⟨{ s with trips := s.trips.delete i }, ?_⟩
  rw [List.foldlM_cons]
  exact bind_eq_ok.mpr ⟨_, bind_eq_ok.mpr ⟨(), hcheck, rfl⟩, rfl⟩

theorem accepts_report_begun (h : Sane s) (huser : s.users.get user.id = some user.toUser)
    {payload : ExpenseReportCreate} {p : Phase}
    (hact : TripAct s user payload.tripId .report t p) (hi : IsInt4 payload.tripId)
    (hleft : NumberLeft s env.utcToday) :
    ∃ s', desk.step s ⟨env, user.id, .expense (.create payload)⟩ = .ok s' := by
  obtain ⟨load, owner⟩ := hact.load_owner rfl hi
  have hphase : t.status ∈ reportableTripStatuses ∧ reportOf s payload.tripId = none := by
    rcases Phase.of_next hact.next with rfl | rfl
    · exact ⟨mem_reportableTripStatuses.mpr (.inl hact.status),
        Option.map_eq_none_iff.mp hact.report⟩
    · exact ⟨mem_reportableTripStatuses.mpr (.inr hact.status),
        Option.map_eq_none_iff.mp hact.report⟩
  have hfree := no_report h.whole.coupled hphase.2
  obtain ⟨no, hno, hnew⟩ := hleft
  have hplan := createReport.eq_1 s env user payload
  rw [load, ok_bind, assertTripOwner, guardE_eq_ok (a := ()).mpr owner, ok_bind,
    assertReportCreatable, guardE_eq_ok (a := ()).mpr hphase.1, ok_bind,
    guardE_eq_ok (a := ()).mpr hfree, ok_bind, hno, ok_bind] at hplan
  refine accepts_of_commit (.expense (.create payload)) huser hplan
    (insert_commits (bind_eq_ok.mpr ⟨(), guardE_eq_ok.mpr ?_, bind_eq_ok.mpr
      ⟨(), guardE_eq_ok.mpr hfree, Store.foreignKey_eq_ok.mpr (by rw [hact.get]; rfl)⟩⟩))
  exact Store.taken_eq_false.mpr fun j r hr _ => hnew j r hr

/-! ## What has been accepted -/

/-- The calls that move a case along; the application itself and the edits are none of them. -/
def IsMove : DeskCall → Bool
  | .trip (.create _) | .trip (.update _ _) | .expense (.update _ _) | .expense (.addItem _ _)
  | .expense (.updateItem _ _) | .expense (.deleteItem _) => false
  | _ => true

theorem givesReason_of_reject {change : String → Result Trips.Change} {payload : RejectRequest}
    {ch : Trips.Change}
    (h : (do
      let reason ← assertRejectReason (some payload.reason)
      text "reject_reason" reason
      change reason) = .ok ch) : GivesReason payload.reason := by
  obtain ⟨reason, hreason, h⟩ := bind_eq_ok.mp h
  obtain ⟨_, htext, -⟩ := bind_eq_ok.mp h
  obtain ⟨hne, rfl⟩ := assertRejectReason_eq_ok.mp hreason
  exact ⟨hne, guardE_eq_ok.mp htext⟩

theorem ready_of_trip {call : TripCall} {p : Plan} (h : call.plan s env user = .ok p) :
    Ready s env (.trip call) := by
  have deed := tripDeed_of_plan h
  generalize p.writes = ws at deed
  cases call with
  | create payload | update tripId payload => trivial
  | delete i => cases deed with | delete load => exact (loadVisibleTrip_eq_ok.mp load).1
  | submit i => cases deed with | submit load => exact (loadVisibleTrip_eq_ok.mp load).1
  | approve i => cases deed with | approve load => exact (loadVisibleTrip_eq_ok.mp load).1
  | reopen i => cases deed with | reopen load => exact (loadVisibleTrip_eq_ok.mp load).1
  | reject i payload =>
    obtain ⟨t, load, h⟩ := bind_eq_ok.mp h
    obtain ⟨_, -, h⟩ := bind_eq_ok.mp h
    obtain ⟨ch, hch, -⟩ := bind_eq_ok.mp h
    exact ⟨(loadVisibleTrip_eq_ok.mp load).1, givesReason_of_reject hch⟩
  | complete i =>
    cases deed with
    | complete load owner status ended =>
      obtain ⟨hi, hget, -⟩ := loadVisibleTrip_eq_ok.mp load
      refine ⟨hi, fun t ht => ?_⟩
      obtain rfl := Option.some.inj (hget.symm.trans ht)
      exact ended

theorem ready_of_expense {call : ExpenseCall} {p : Plan} (h : call.plan s env user = .ok p)
    (hc : p.commit s = .ok s') : Ready s env (.expense call) := by
  have deed := expenseDeed_of_plan h
  have hc := Plan.commit_eq_ok.mp hc
  generalize p.writes = ws at deed hc
  cases call with
  | update reportId payload | addItem reportId payload | updateItem itemId payload
  | deleteItem itemId => trivial
  | approve j => cases deed with | approve load => exact (loadVisibleReport_eq_ok.mp load).1
  | reopen j => cases deed with | reopen load => exact (loadVisibleReport_eq_ok.mp load).1
  | reject j payload =>
    obtain ⟨r, load, h⟩ := bind_eq_ok.mp h
    obtain ⟨_, -, h⟩ := bind_eq_ok.mp h
    obtain ⟨ch, hch, -⟩ := bind_eq_ok.mp h
    obtain ⟨reason, hreason, hch⟩ := bind_eq_ok.mp hch
    obtain ⟨_, -, hch⟩ := bind_eq_ok.mp hch
    obtain ⟨_, htext, -⟩ := bind_eq_ok.mp hch
    obtain ⟨hne, rfl⟩ := assertRejectReason_eq_ok.mp hreason
    exact ⟨(loadVisibleReport_eq_ok.mp load).1, hne, guardE_eq_ok.mp htext⟩
  | submit j =>
    cases deed with
    | submit load owner status trip completed present centers items =>
      obtain ⟨hj, hget, -⟩ := loadVisibleReport_eq_ok.mp load
      refine ⟨hj, fun r hr => ?_⟩
      obtain rfl := Option.some.inj (hget.symm.trans hr)
      exact ⟨present, centers.1, centers.2, items⟩
  | create payload =>
    cases deed with
    | create load owner reportable single new records =>
      obtain ⟨hcheck, -⟩ := commit_report hc
      obtain ⟨_, hunique, -⟩ := bind_eq_ok.mp hcheck
      refine ⟨(loadVisibleTrip_eq_ok.mp load).1, _, new.reportNo, fun j r hr => ?_⟩
      exact not_referenced (guardE_eq_ok.mp hunique) hr

/-- A call for a move finds the report it is about. -/
theorem label_of_step {call : DeskCall} (hmove : IsMove call = true)
    (hstep : desk.step s ⟨env, user.id, call⟩ = .ok s') : ∃ l, labelOf s user.id call = some l := by
  obtain ⟨p, hplan, -⟩ := bind_eq_ok.mp hstep
  obtain ⟨u, -, deed⟩ := deed_of_plan hplan
  generalize p.writes = ws at deed
  have hreport : ∀ {j r}, loadVisibleReport s j u = .ok r → ∀ a, ∃ l,
      (onReport s j a).map (fun m => (⟨user.id, (s.users.get user.id).bind User.managerId, m.1, m.2⟩
        : Label)) = some l :=
    fun load a => ⟨_, by rw [onReport_of_get (loadVisibleReport_eq_ok.mp load).2.1]; rfl⟩
  cases deed with
  | trip deed =>
    cases deed with
    | create | update => cases hmove
    | _ => exact ⟨_, rfl⟩
  | expense deed =>
    cases deed with
    | create => exact ⟨_, rfl⟩
    | submit load | approve load | reject load | reopen load => exact hreport load _
    | _ => cases hmove

theorem accepts (h : Sane s) (huser : s.users.get user.id = some user.toUser) {call : DeskCall}
    (hmove : IsMove call = true) (hready : Ready s env call) {l : Label} {w : Cases}
    (hl : labelOf s user.id call = some l) (hstep : step (caseOf s) l = some w) :
    ∃ s', desk.step s ⟨env, user.id, call⟩ = .ok s' := by
  have hmanager : (s.users.get user.id).bind User.managerId = user.managerId := by
    rw [huser]
    rfl
  obtain ⟨m, hm, rfl⟩ := Option.map_eq_some_iff.mp hl
  rw [hmanager] at hstep
  cases call with
  | trip call =>
    cases call with
    | create payload | update tripId payload => cases hmove
    | delete i =>
      obtain rfl := Option.some.inj hm
      exact accepts_drop h huser hstep hready
    | submit i =>
      obtain rfl := Option.some.inj hm
      obtain ⟨t, p, hact⟩ := tripAct_of_step hstep
      exact accepts_submit h huser hact hready
    | approve i =>
      obtain rfl := Option.some.inj hm
      obtain ⟨t, p, hact⟩ := tripAct_of_step hstep
      exact accepts_approve huser hact hready
    | reject i payload =>
      obtain rfl := Option.some.inj hm
      obtain ⟨t, p, hact⟩ := tripAct_of_step hstep
      exact accepts_reject huser hact hready.1 hready.2
    | reopen i =>
      obtain rfl := Option.some.inj hm
      obtain ⟨t, p, hact⟩ := tripAct_of_step hstep
      exact accepts_reopen huser hact hready
    | complete i =>
      obtain rfl := Option.some.inj hm
      obtain ⟨t, p, hact⟩ := tripAct_of_step hstep
      exact accepts_complete huser hact hready.1 (hready.2 t hact.get)
  | expense call =>
    cases call with
    | update | addItem | updateItem | deleteItem => cases hmove
    | create payload =>
      obtain rfl := Option.some.inj hm
      obtain ⟨t, p, hact⟩ := tripAct_of_step hstep
      exact accepts_report_begun h huser hact hready.1 hready.2
    | submit j =>
      obtain ⟨r, t, p, hact⟩ := reportAct_of_step h.whole.coupled hm hstep
      exact accepts_claim h huser hact hready.1 (hready.2 r hact.get)
    | approve j =>
      obtain ⟨r, t, p, hact⟩ := reportAct_of_step h.whole.coupled hm hstep
      exact accepts_settle huser hact hready
    | reject j payload =>
      obtain ⟨r, t, p, hact⟩ := reportAct_of_step h.whole.coupled hm hstep
      exact accepts_dispute huser hact hready.1 hready.2
    | reopen j =>
      obtain ⟨r, t, p, hact⟩ := reportAct_of_step h.whole.coupled hm hstep
      exact accepts_revise huser hact hready

/-! ## Runs of the system -/

theorem agrees_of_sameDesk (h : Agrees s) (hsame : SameDesk s s') : Agrees s' where
  trip i t hi := h.trip i t (hsame.trips ▸ hi)
  report j r hj := h.report j r (hsame.reports ▸ hj)
  stocked j r hj := by
    simp only [Stocked, includedCount, itemsOf, hsame.items]
    exact h.stocked j r (hsame.reports ▸ hj)

theorem Sane.of_empty (htrips : s.trips.rows = []) (h : NoReports s) : Sane s where
  whole := .of_no_trips htrips h.reports
  exact := .of_no_reports h
  agrees := by
    refine ⟨fun i t hi => ?_, fun j r hj => ?_, fun j r hj => ?_⟩
    · rw [Table.get_of_rows_nil htrips] at hi
      cases hi
    all_goals
      rw [Table.get_of_rows_nil h.reports] at hj
      cases hj

theorem Sane.step {sec : Security} {req : Request Call} (h : Sane s)
    (hstep : (system sec).step s req = .ok s') : Sane s' := by
  have hwhole := (refines_process sec).inv s req s' h.whole hstep
  rcases system_step_cases hstep with ⟨userId, call, -, hdesk⟩ | hsame
  · exact ⟨hwhole, h.exact.step hdesk, h.agrees.step hdesk⟩
  · exact ⟨hwhole, h.exact.of_same hsame.reports hsame.items,
      agrees_of_sameDesk h.agrees hsame⟩

theorem Sane.run (sec : Security) {reqs : List (Request Call)} (h : Sane s) :
    Sane (Run.all (system sec).step s reqs) :=
  Run.invariant_of_step (fun _ _ _ => Sane.step) h

/-- A request for a move is accepted exactly if the process allows its user the move and it is
ready. -/
theorem accepts_iff (h : Sane s) {userId : Int} {call : DeskCall}
    (hmove : IsMove call = true) :
    (∃ s', desk.step s ⟨env, userId, call⟩ = .ok s') ↔
      (s.users.get userId).isSome ∧ Ready s env call ∧
        ∃ l w, labelOf s userId call = some l ∧ step (caseOf s) l = some w := by
  constructor
  · rintro ⟨s', hdesk⟩
    obtain ⟨p, hplan, hcommit⟩ := bind_eq_ok.mp hdesk
    obtain ⟨user, huser, hplan⟩ := bind_eq_ok.mp hplan
    obtain ⟨hget, rfl⟩ := currentUser_eq_ok.mp huser
    obtain ⟨l, hl⟩ := label_of_step hmove hdesk
    have hcomes := comes_of_desk _ h.whole hdesk
    rw [hl] at hcomes
    refine ⟨by rw [hget]; rfl, ?_, l, _, hl, hcomes.moved⟩
    cases call with
    | trip call => exact ready_of_trip hplan
    | expense call => exact ready_of_expense hplan hcommit
  · rintro ⟨huser, hready, l, w, hl, hstep⟩
    obtain ⟨u, hu⟩ := Option.isSome_iff_exists.mp huser
    obtain ⟨user, hget, rfl⟩ : ∃ user : CurrentUser, s.users.get userId = some user.toUser ∧
        user.id = userId := ⟨{ u with id := userId }, hu, rfl⟩
    exact accepts h hget hmove hready hl hstep

/-! ## By the rows of a case -/

/-- The status that a trip has before an act on the trip itself. -/
def Act.tripBefore? : Act → Option TripStatus
  | .submit => some .draft
  | .approve | .reject => some .submitted
  | .reopen => some .rejected
  | .complete => some .approved
  | _ => none

/-- The status that a report has before an act on it. -/
def Act.reportBefore? : Act → Option ExpenseReportStatus
  | .claim => some .draft
  | .settle | .dispute => some .submitted
  | .revise => some .rejected
  | _ => none

theorem next_isSome_of_trip {p : Phase} {a : Act} {status : TripStatus}
    (ha : a.tripBefore? = some status) : (p.next a).isSome ↔ p.trip = status := by
  cases a <;> cases ha <;> cases p with
  | underway begun => cases begun <;> decide
  | _ => decide

/-- A report is submitted only once its trip is completed. -/
theorem next_isSome_of_report {p : Phase} {a : Act} {status : ExpenseReportStatus}
    (ha : a.reportBefore? = some status) :
    (p.next a).isSome ↔ p.report? = some status ∧ (a = .claim → p.trip = .completed) := by
  cases a <;> cases ha <;> cases p with
  | underway begun => cases begun <;> decide
  | _ => decide

theorem next_isSome_report {p : Phase} : (p.next .report).isSome ↔
    (p.trip = .approved ∨ p.trip = .completed ∨ p.trip = .settled) ∧ p.report? = none := by
  cases p with
  | underway begun => cases begun <;> decide
  | _ => decide

theorem accepts_move_iff (h : Sane s) (huser : s.users.get user.id = some user.toUser)
    {call : DeskCall} (hmove : IsMove call = true) {m : Int × Move}
    (hm : moveOf s call = some m) :
    (∃ s', desk.step s ⟨env, user.id, call⟩ = .ok s') ↔ Ready s env call ∧
      ∃ w, step (caseOf s) ⟨user.id, user.managerId, m.1, m.2⟩ = some w := by
  have hl : labelOf s user.id call = some ⟨user.id, user.managerId, m.1, m.2⟩ := by
    rw [labelOf, labelFrom, hm, huser]
    rfl
  rw [accepts_iff h hmove, huser, hl]
  constructor
  · rintro ⟨-, hready, l, w, hl', hw⟩
    obtain rfl := Option.some.inj hl'
    exact ⟨hready, w, hw⟩
  · rintro ⟨hready, w, hw⟩
    exact ⟨rfl, hready, _, w, rfl, hw⟩

/-- An act on a trip is accepted by the status of the trip. -/
theorem accepts_tripAct_iff (h : Sane s) (huser : s.users.get user.id = some user.toUser)
    (ht : s.trips.get i = some t) {call : DeskCall} {a : Act} {status : TripStatus}
    (hmove : IsMove call = true) (hm : moveOf s call = some (i, .act a))
    (ha : a.tripBefore? = some status) :
    (∃ s', desk.step s ⟨env, user.id, call⟩ = .ok s') ↔ Ready s env call ∧
      Case.On ⟨t.userId, t.approverId, .drafted⟩ user.id a.side ∧ t.status = status ∧
        (a = .submit → user.managerId ≠ none) := by
  obtain ⟨p, hcase, htrip, -⟩ := h.whole.case ht
  rw [accepts_move_iff h huser hmove hm, allows_act hcase, next_isSome_of_trip ha, htrip]
  cases a <;> cases ha <;> simp [Case.approverAfter, Act.side, Case.On, Option.isSome_iff_ne_none]

/-- An act on a report is accepted by the status of the report, a submission by that of the trip as
well. -/
theorem accepts_reportAct_iff (h : Sane s) (huser : s.users.get user.id = some user.toUser)
    (hj : s.reports.get j = some r) {call : DeskCall} {a : Act} {status : ExpenseReportStatus}
    (hmove : IsMove call = true) (hm : moveOf s call = onReport s j a)
    (ha : a.reportBefore? = some status) :
    (∃ s', desk.step s ⟨env, user.id, call⟩ = .ok s') ↔ Ready s env call ∧
      Case.On ⟨r.userId, r.approverId, .drafted⟩ user.id a.side ∧ r.status = status ∧
        (a = .claim → ∀ t, s.trips.get r.tripId = some t → t.status = .completed) := by
  obtain ⟨t, ht, hmatched⟩ := h.whole.coupled.report j r hj
  obtain ⟨p, hcase, htrip, hreport⟩ := h.whole.case ht
  rw [(reportOf_eq_some h.whole.coupled).mpr ⟨j, hj, rfl⟩, Option.map_some] at hreport
  rw [onReport_of_get hj] at hm
  rw [accepts_move_iff h huser hmove hm, allows_act hcase, next_isSome_of_report ha, htrip,
    hreport, hmatched.userId, hmatched.approverId, Option.some.injEq]
  cases a <;> cases ha <;> simp [Case.approverAfter, Act.side, Case.On, ht]

/-- In every state that the system leads to from one without trips, a request for a move is
accepted exactly if the process allows its user the move and it is ready. -/
theorem accepted_iff (sec : Security) {s₀ : Store} (htrips : s₀.trips.rows = [])
    (h₀ : NoReports s₀) (reqs : List (Request Call)) :
    let s := Run.all (system sec).step s₀ reqs
    ∀ env userId call, IsMove call = true →
      ((∃ s', (system sec).step s ⟨env, .desk userId call⟩ = .ok s') ↔
        (s.users.get userId).isSome ∧ Ready s env call ∧
          ∃ l w, labelOf s userId call = some l ∧ step (caseOf s) l = some w) := by
  intro s env userId call hmove
  exact accepts_iff ((Sane.of_empty htrips h₀).run sec) hmove

/-- Whether Lee can approve Kim's report, once it is submitted. -/
theorem accepted_iff_office :
    let s := Run.all (system Office.sec).step Office.store
      ((Office.tripDone 1 ++ Office.reportSubmitted 1).map fun r => ⟨r.env, .desk r.userId r.call⟩)
    (∃ s', (system Office.sec).step s ⟨Office.env, .desk 2 (.expense (.approve 1))⟩ = .ok s') ↔
      (s.users.get 2).isSome ∧ Ready s Office.env (.expense (.approve 1)) ∧
        ∃ l w, labelOf s 2 (.expense (.approve 1)) = some l ∧ step (caseOf s) l = some w :=
  accepted_iff Office.sec rfl ⟨rfl, rfl⟩ _ _ _ _ rfl

end Biztrip.Process
