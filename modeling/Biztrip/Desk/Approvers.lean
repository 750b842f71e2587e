import Biztrip.Accounts.Managers
import Biztrip.Desk.Authority
import Biztrip.Desk.Coupling
import Biztrip.Desk.Rows

/-!
# Nobody approves their own request

No approval compares the actor with the owner. `submit_trip` takes the approver
from the owner's manager, `create_report` and `submit_report` take it from the trip,
and the administration of accounts makes nobody their own manager: `Apart` is what
these three have in common, and every request of the system keeps it.
-/

namespace Biztrip.Desk

open Biztrip.Lib Accounts Trips Expenses

structure Apart (s : Store) : Prop where
  managers : NoneOwnManager s
  coupled : Coupled s
  trip : ∀ i t, s.trips.get i = some t → t.approverId ≠ some t.userId
  report : ∀ j r, s.reports.get j = some r → r.approverId ≠ some r.userId

variable {s s' : Store} {env : Env} {user : CurrentUser} {ws : List Write}

/-! ## The rows a deed computes -/

theorem Apart.tripRows {call : TripCall} (h : Apart s)
    (hmanager : user.managerId ≠ some user.id) (deed : TripDeed s env user call ws) :
    ∀ p ∈ Desk.tripRows s ws, p.2.approverId ≠ some p.2.userId := by
  cases deed with
  | create new records => simp [new.approverId]
  | update load owner editable assigned range same records =>
    have hold := h.trip _ _ (loadVisibleTrip_eq_ok.mp load).2.1
    simpa [same.approverId, same.userId] using hold
  | delete load owner status => simp
  | submit load owner status range approver moved records =>
    -- the approver is the manager of the owner, who acts
    rw [approver, owner] at hmanager
    simpa [moved] using hmanager
  | approve load approver status moved records =>
    have hold := h.trip _ _ (loadVisibleTrip_eq_ok.mp load).2.1
    simpa [moved] using hold
  | reject load approver status given moved records =>
    have hold := h.trip _ _ (loadVisibleTrip_eq_ok.mp load).2.1
    simpa [moved] using hold
  | reopen load owner status moved records => simp [moved]
  | complete load owner status ended moved records =>
    have hold := h.trip _ _ (loadVisibleTrip_eq_ok.mp load).2.1
    simpa [moved] using hold

theorem Apart.settledRows {call : ExpenseCall} (h : Apart s)
    (deed : ExpenseDeed s env user call ws) :
    ∀ p ∈ Desk.tripRows s ws, p.2.approverId ≠ some p.2.userId := by
  cases deed with
  | approve load approver status trip completed moved settled records records' =>
    have hold := h.trip _ _ trip
    simpa [settled] using hold
  | _ => simp

/-- The approver of a report comes from its trip, which has the same owner. -/
theorem Apart.reportRows {call : ExpenseCall} (h : Apart s)
    (deed : ExpenseDeed s env user call ws) :
    ∀ p ∈ Desk.reportRows s ws, p.2.approverId ≠ some p.2.userId := by
  cases deed with
  | create load owner reportable single new records =>
    have hold := h.trip _ _ (loadVisibleTrip_eq_ok.mp load).2.1
    simpa [new.approverId, new.userId] using hold
  | update load centers assigned records =>
    have hload := (loadEditableReport_eq_ok.mp load).1
    have hold := h.report _ _ (loadVisibleReport_eq_ok.mp hload).2.1
    simpa [assigned] using hold
  | addItem load | updateItem int4 get load | deleteItem int4 get load =>
    have hload := (loadEditableReport_eq_ok.mp load).1
    have hold := h.report _ _ (loadVisibleReport_eq_ok.mp hload).2.1
    simpa using hold
  | submit load owner status trip completed present centers items recalc approver moved records =>
    obtain ⟨t, ht, hm⟩ := h.coupled.report _ _ (loadVisibleReport_eq_ok.mp load).2.1
    rw [trip, Option.some.injEq] at ht
    subst ht
    have hold := h.trip _ _ trip
    rw [approver, ← hm.userId] at hold
    simpa [moved] using hold
  | approve load approver status trip completed moved settled records records' =>
    have hold := h.report _ _ (loadVisibleReport_eq_ok.mp load).2.1
    simpa [moved] using hold
  | reject load approver status given moved records =>
    have hold := h.report _ _ (loadVisibleReport_eq_ok.mp load).2.1
    simpa [moved] using hold
  | reopen load owner status moved records =>
    have hold := h.report _ _ (loadVisibleReport_eq_ok.mp load).2.1
    simpa [moved] using hold

/-! ## One request -/

theorem Apart.deskStep {req : DeskRequest} (h : Apart s) (hstep : desk.step s req = .ok s')
    (hmanagers : NoneOwnManager s') : Apart s' := by
  have hcoupled := h.coupled.step hstep
  obtain ⟨p, hplan, hcommit⟩ := bind_eq_ok.mp hstep
  obtain ⟨user, huser, deed⟩ := deed_of_plan hplan
  have hc := Plan.commit_eq_ok.mp hcommit
  have hdrawn := deed.rows hc
  generalize req.call = call at deed
  cases deed with
  | trip deed =>
    obtain ⟨hget, hid⟩ := currentUser_eq_ok.mp huser
    have hmanager : user.managerId ≠ some user.id := by
      rw [hid]
      exact h.managers _ _ hget
    refine ⟨hmanagers, hcoupled,
      hdrawn.trips.forall (fun _ _ _ => id) h.trip (h.tripRows hmanager deed), ?_⟩
    rw [(deed.tables hc).1]
    exact h.report
  | expense deed =>
    exact ⟨hmanagers, hcoupled,
      hdrawn.trips.forall (fun _ _ _ => id) h.trip (h.settledRows deed),
      hdrawn.reports.forall (fun _ _ _ => id) h.report (h.reportRows deed)⟩

theorem Apart.step {sec : Security} {req : Request Call} (h : Apart s)
    (hstep : (system sec).step s req = .ok s') : Apart s' := by
  have hmanagers := h.managers.systemStep hstep
  rcases system_step_cases hstep with ⟨userId, call, -, hdesk⟩ | hsame
  · exact h.deskStep hdesk hmanagers
  · refine ⟨hmanagers, h.coupled.of_sameDesk hsame, ?_, ?_⟩
    · rw [hsame.trips]
      exact h.trip
    · rw [hsame.reports]
      exact h.report

/-- Who approves or rejects is the approver, and so not the owner. -/
theorem Apart.tripActor {userId tripId : Int} (h : Apart s) (ha : ApprovesTrip s userId tripId) :
    ∃ t, s.trips.get tripId = some t ∧ userId ≠ t.userId := by
  obtain ⟨t, ht, happrover⟩ := ha
  refine ⟨t, ht, ?_⟩
  rintro rfl
  exact h.trip _ _ ht happrover

theorem Apart.reportActor {userId reportId : Int} (h : Apart s)
    (ha : ApprovesReport s userId reportId) :
    ∃ r, s.reports.get reportId = some r ∧ userId ≠ r.userId := by
  obtain ⟨r, hr, happrover⟩ := ha
  refine ⟨r, hr, ?_⟩
  rintro rfl
  exact h.report _ _ hr happrover

/-- A desk request that the system serves is within the authority of who makes it. -/
theorem mayWrite_of_system {sec : Security} {userId : Int} {call : DeskCall}
    (hstep : (system sec).step s ⟨env, .desk userId call⟩ = .ok s') : MayWrite s userId call := by
  obtain ⟨p, hplan, -⟩ := bind_eq_ok.mp hstep
  have hdesk : desk.plan s ⟨env, userId, call⟩ = .ok p := hplan
  exact mayWrite_of_plan hdesk

/-! ## Runs -/

/-- After any serial run of account administration and of trip and report calls, from a store
without trips and reports in which nobody is their own manager, no trip and no report has its owner
for its approver; so whoever approves or rejects one is not its owner. -/
theorem nobody_approves_their_own (sec : Security) {s₀ : Store} (htrips : s₀.trips.rows = [])
    (hreports : s₀.reports.rows = [])
    (hmanagers : ∀ i u, s₀.users.get i = some u → u.managerId ≠ some i)
    (reqs : List (Request Call)) :
    let s := Run.all (system sec).step s₀ reqs
    (∀ i t, s.trips.get i = some t → t.approverId ≠ some t.userId) ∧
    (∀ j r, s.reports.get j = some r → r.approverId ≠ some r.userId) ∧
    (∀ env userId tripId call s', call = TripCall.approve tripId ∨
        (∃ payload, call = .reject tripId payload) →
      (system sec).step s ⟨env, .desk userId (.trip call)⟩ = .ok s' →
      ∃ t, s.trips.get tripId = some t ∧ userId ≠ t.userId) ∧
    (∀ env userId reportId call s', call = ExpenseCall.approve reportId ∨
        (∃ payload, call = .reject reportId payload) →
      (system sec).step s ⟨env, .desk userId (.expense call)⟩ = .ok s' →
      ∃ r, s.reports.get reportId = some r ∧ userId ≠ r.userId) := by
  intro s
  have h₀ : Apart s₀ := by
    refine ⟨hmanagers, .of_no_trips htrips hreports, ?_, ?_⟩
    · intro i t ht
      simp [Table.get_of_rows_nil htrips] at ht
    · intro j r hr
      simp [Table.get_of_rows_nil hreports] at hr
  have h : Apart s := Run.invariant_of_step (fun _ _ _ hs hstep => hs.step hstep) h₀
  refine ⟨h.trip, h.report, fun env userId tripId call s' hcall hstep => h.tripActor ?_,
    fun env userId reportId call s' hcall hstep => h.reportActor ?_⟩
  · rcases hcall with rfl | ⟨payload, rfl⟩
    · exact mayWrite_of_system hstep
    · exact mayWrite_of_system hstep
  · rcases hcall with rfl | ⟨payload, rfl⟩
    · exact mayWrite_of_system hstep
    · exact mayWrite_of_system hstep

/-- The requests of a run of the desk, as requests of the system. -/
def onSystem (reqs : List DeskRequest) : List (Request Call) :=
  reqs.map fun r => ⟨r.env, .desk r.userId r.call⟩

/-- In the office, Lee approves Kim's trip and is not Kim. -/
theorem nobody_approves_their_own_office :
    ∃ t, (Run.all (system Office.sec).step Office.store
      (onSystem ((Office.tripDone 1).take 2))).trips.get 1 = some t ∧ (2 : Int) ≠ t.userId := by
  have hmanagers : ∀ i u, Office.store.users.get i = some u → u.managerId ≠ some i := by
    have hall : ∀ p ∈ Office.store.users.rows, p.2.managerId ≠ some p.1 := by decide
    exact fun i u hu => hall (i, u) (Table.mem_rows.mpr hu)
  have hok : ((system Office.sec).step (Run.all (system Office.sec).step Office.store
      (onSystem ((Office.tripDone 1).take 2)))
        ⟨Office.env, .desk 2 (.trip (.approve 1))⟩).toOption.bind (fun _ => some ()) = some () := by
    decide +kernel
  obtain ⟨s', hs', -⟩ := toOption_bind_eq_some.mp hok
  exact (nobody_approves_their_own Office.sec rfl rfl hmanagers _).2.2.1 Office.env 2 1 _ s'
    (.inl rfl) hs'

end Biztrip.Desk
