import Biztrip.Desk.Locked
import Biztrip.Desk.Rows

/-!
# A status and the fields that go with it

Five columns of a trip and of a report follow its status: the approver, the times of
submission and approval, the reason of a rejection, and the day a trip ends. Nine
transitions write them, each another part of them, and a reason stays behind when a
rejected row is reopened. `TripAgrees` and `ReportAgrees` are what every one of them
leaves, status by status. That a completed trip had ended is a fact about the run
(`CompletedLate`): the day is not stored.
-/

namespace Biztrip.Desk

open Biztrip.Lib Trips Expenses

/-- A reason with something in it besides spaces. -/
def Reasoned (rejectReason : Option String) : Prop :=
  ∃ reason, rejectReason = some reason ∧ strip reason ≠ ""

structure TripAgrees (t : Trip) : Prop where
  dates : t.startDate ≤ t.endDate
  draft : t.status = .draft → t.approverId = none ∧ t.submittedAt = none ∧ t.approvedAt = none
  submitted : t.status = .submitted →
    t.approverId ≠ none ∧ t.submittedAt ≠ none ∧ t.approvedAt = none ∧ t.rejectReason = none
  rejected : t.status = .rejected →
    t.approverId ≠ none ∧ t.submittedAt ≠ none ∧ t.approvedAt = none ∧ Reasoned t.rejectReason
  approved : t.status = .approved ∨ t.status = .completed ∨ t.status = .settled →
    t.approverId ≠ none ∧ t.submittedAt ≠ none ∧ t.approvedAt ≠ none ∧ t.rejectReason = none

structure ReportAgrees (r : ExpenseReport) : Prop where
  draft : r.status = .draft → r.submittedAt = none ∧ r.approvedAt = none
  submitted : r.status = .submitted ∨ r.status = .approved →
    r.submittedAt ≠ none ∧ r.rejectReason = none ∧ blank r.fundCenterCode = false ∧
      blank r.costCenterCode = false ∧ (r.approvedAt ≠ none ↔ r.status = .approved)
  rejected : r.status = .rejected →
    r.submittedAt ≠ none ∧ r.approvedAt = none ∧ Reasoned r.rejectReason

/-- A report that is submitted or approved has an item that counts. -/
def Stocked (s : Store) (j : Int) (r : ExpenseReport) : Prop :=
  r.status = .submitted ∨ r.status = .approved → 0 < includedCount s j

/-- `complete_trip` has run on the trip, on a day after its end. -/
def CompletedLate (s₀ : Store) (past : List DeskRequest) (i : Int) (t : Trip) : Prop :=
  ∃ n req s', past[n]? = some req ∧ req.call = .trip (.complete i) ∧
    desk.step (Run.all desk.step s₀ (past.take n)) req = .ok s' ∧ t.endDate < req.env.today

variable {s s' : Store} {env : Env} {user : CurrentUser} {now : Instant} {ws : List Write}

theorem date_le_iff {a b : Date} : a ≤ b ↔ ¬ b < a := Nat.not_lt.symm

theorem reasoned_of_reject {reason text : String}
    (h : assertRejectReason (some reason) = .ok text) : Reasoned (some text) := by
  obtain ⟨_, hne, h⟩ := bind_eq_ok.mp h
  obtain rfl := Except.ok.inj h
  exact ⟨_, rfl, strip_strip_ne_empty (guardE_eq_ok.mp hne)⟩

/-! ## Trips -/

theorem TripDeed.agrees {call : TripCall} (deed : TripDeed s env user call ws)
    (h : ∀ i t, s.trips.get i = some t → TripAgrees t) : ∀ p ∈ tripRows s ws, TripAgrees p.2 := by
  have old : ∀ {i : Int} {t : Trip}, loadVisibleTrip s i user = .ok t → TripAgrees t :=
    fun load => h _ _ (loadVisibleTrip_eq_ok.mp load).2.1
  cases deed with
  | delete load owner status => simp
  | @create _ t _ new records =>
    have hnew : TripAgrees t := by
      refine ⟨date_le_iff.mpr new.range, ?_, ?_, ?_, ?_⟩ <;>
        simp [new.status, new.approverId, new.submittedAt, new.approvedAt]
    simpa using hnew
  | @update _ _ t t' _ load owner editable assigned range same records =>
    have hold := old load
    have hnew : TripAgrees t' := by
      refine ⟨date_le_iff.mpr range, ?_, ?_, ?_, ?_⟩ <;>
        rw [same.status, same.approverId, same.submittedAt, same.approvedAt]
      · exact hold.draft
      · rw [same.rejectReason]
        exact hold.submitted
      · rw [same.rejectReason]
        exact hold.rejected
      · rw [same.rejectReason]
        exact hold.approved
    simpa using hnew
  | @submit _ t t' _ _ load owner status range approver moved records =>
    have hold := old load
    have hnew : TripAgrees t' := by
      subst moved
      exact ⟨hold.dates, nofun, fun _ => ⟨nofun, nofun, rfl, rfl⟩, nofun, by simp⟩
    simpa using hnew
  | @approve _ t t' _ load approver status moved records =>
    have hold := old load
    obtain ⟨happrover, hsubmitted, -, hreason⟩ := hold.submitted status
    have hnew : TripAgrees t' := by
      subst moved
      exact ⟨hold.dates, nofun, nofun, nofun, fun _ => ⟨happrover, hsubmitted, nofun, hreason⟩⟩
    simpa using hnew
  | @reject _ _ t t' _ _ load approver status given moved records =>
    have hold := old load
    obtain ⟨happrover, hsubmitted, happroved, -⟩ := hold.submitted status
    have hnew : TripAgrees t' := by
      subst moved
      exact ⟨hold.dates, nofun, nofun,
        fun _ => ⟨happrover, hsubmitted, happroved, reasoned_of_reject given⟩, by simp⟩
    simpa using hnew
  | @reopen _ t t' _ load owner status moved records =>
    have hold := old load
    have hnew : TripAgrees t' := by
      subst moved
      exact ⟨hold.dates, fun _ => ⟨rfl, rfl, rfl⟩, nofun, nofun, by simp⟩
    simpa using hnew
  | @complete _ t t' _ load owner status ended moved records =>
    have hold := old load
    have happroved := hold.approved (.inl status)
    have hnew : TripAgrees t' := by
      subst moved
      exact ⟨hold.dates, nofun, nofun, nofun, fun _ => happroved⟩
    simpa using hnew

/-- The settlement is the one change of a trip that a report call makes. -/
theorem ExpenseDeed.tripAgrees {call : ExpenseCall} (deed : ExpenseDeed s env user call ws)
    (h : ∀ i t, s.trips.get i = some t → TripAgrees t) : ∀ p ∈ tripRows s ws, TripAgrees p.2 := by
  cases deed with
  | @approve _ _ _ t t' _ _ load approver status trip completed moved settled records records' =>
    have hold := h _ _ trip
    have happroved := hold.approved (.inr (.inl completed))
    have hnew : TripAgrees t' := by
      subst settled
      exact ⟨hold.dates, nofun, nofun, nofun, fun _ => happroved⟩
    simpa using hnew
  | _ => simp

/-! ## Reports -/

theorem ReportAgrees.total {r : ExpenseReport} (h : ReportAgrees r) (total : Krw) :
    ReportAgrees { r with totalAmountKrw := total } := ⟨h.draft, h.submitted, h.rejected⟩

theorem ExpenseDeed.agrees {call : ExpenseCall} (deed : ExpenseDeed s env user call ws)
    (h : ∀ j r, s.reports.get j = some r → ReportAgrees r) :
    ∀ p ∈ reportRows s ws, ReportAgrees p.2 := by
  have old : ∀ {j : Int} {r : ExpenseReport}, loadVisibleReport s j user = .ok r →
      ReportAgrees r := fun load => h _ _ (loadVisibleReport_eq_ok.mp load).2.1
  cases deed with
  | @create _ _ r _ load owner reportable single new records =>
    have hnew : ReportAgrees r :=
      ⟨fun _ => ⟨new.submittedAt, new.approvedAt⟩, by simp [new.status], by simp [new.status]⟩
    simpa using hnew
  | @update _ _ r r' _ load centers assigned records =>
    obtain ⟨hload, -, editable⟩ := loadEditableReport_eq_ok.mp load
    have hold := old hload
    have hnew : ReportAgrees r' := by
      subst assigned
      refine ⟨hold.draft, fun hlocked => ?_, hold.rejected⟩
      rcases mem_expenseEditableStatuses.mp editable with hst | hst <;> simp [hst] at hlocked
    simpa using hnew
  | addItem load | updateItem int4 get load | deleteItem int4 get load =>
    have hold := old (loadEditableReport_eq_ok.mp load).1
    simpa using hold.total _
  | @submit _ r r' _ _ _ _ load owner status trip completed present centers items recalc approver
      moved records =>
    have hnew : ReportAgrees r' := by
      subst moved
      exact ⟨nofun, fun _ => ⟨nofun, rfl, present.1, present.2, by simp⟩, nofun⟩
    simpa using hnew
  | @approve _ r r' _ _ _ _ load approver status trip completed moved settled records records' =>
    obtain ⟨hsubmitted, hreason, hfund, hcost, -⟩ := (old load).submitted (.inl status)
    have hnew : ReportAgrees r' := by
      subst moved
      exact ⟨nofun, fun _ => ⟨hsubmitted, hreason, hfund, hcost, by simp⟩, nofun⟩
    simpa using hnew
  | @reject _ _ r r' _ _ load approver status given moved records =>
    obtain ⟨hsubmitted, -, -, -, happroved⟩ := (old load).submitted (.inl status)
    have hnone : r.approvedAt = none := by
      by_contra hsome
      simp [status] at happroved
      exact hsome happroved
    have hnew : ReportAgrees r' := by
      subst moved
      exact ⟨nofun, by simp, fun _ => ⟨hsubmitted, hnone, reasoned_of_reject given⟩⟩
    simpa using hnew
  | @reopen _ r r' _ load owner status moved records =>
    have hnew : ReportAgrees r' := by
      subst moved
      exact ⟨fun _ => ⟨rfl, rfl⟩, by simp, nofun⟩
    simpa using hnew

/-- A submission counts the items; afterwards they stay. -/
theorem ExpenseDeed.stocked {call : ExpenseCall} (deed : ExpenseDeed s env user call ws)
    (hc : ws.foldlM (Store.flush now) s = .ok s') (huntouched : Untouched s s')
    (h : ∀ j r, s.reports.get j = some r → Stocked s j r) :
    ∀ p ∈ reportRows s ws, Stocked s' p.1 p.2 := by
  cases deed with
  | create load owner reportable single new records => simp [Stocked, new.status]
  | update load centers assigned records =>
    have editable := (loadEditableReport_eq_ok.mp load).2.2
    rcases mem_expenseEditableStatuses.mp editable with hst | hst <;> simp [Stocked, assigned, hst]
  | addItem load | updateItem int4 get load | deleteItem int4 get load =>
    have editable := (loadEditableReport_eq_ok.mp load).2.2
    rcases mem_expenseEditableStatuses.mp editable with hst | hst <;> simp [Stocked, hst]
  | submit load owner status trip completed present centers items recalc approver moved records =>
    obtain ⟨-, u, happly, rfl⟩ := commit_report hc
    simp only [reportRows_report, RowWrite.keyed_update, Option.toList_some, reportRows_history,
      List.append_nil, List.mem_singleton, forall_eq]
    exact fun _ => items
  | approve load approver status trip completed moved settled records records' =>
    have hget := (loadVisibleReport_eq_ok.mp load).2.1
    have hitems := (huntouched.report _ _ hget (.inl status)).1
    have hcount := h _ _ hget (.inl status)
    simp only [includedCount, ← hitems] at hcount
    simpa [Stocked, includedCount] using fun _ => hcount
  | reject load approver status given moved records => simp [Stocked, moved]
  | reopen load owner status moved records => simp [Stocked, moved]

/-! ## One request -/

structure Agrees (s : Store) : Prop where
  trip : ∀ i t, s.trips.get i = some t → TripAgrees t
  report : ∀ j r, s.reports.get j = some r → ReportAgrees r
  stocked : ∀ j r, s.reports.get j = some r → Stocked s j r

theorem TripAgrees.stamp {t : Trip} (at₀ : Instant) (h : TripAgrees t) :
    TripAgrees (Lib.stamp at₀ t) := ⟨h.dates, h.draft, h.submitted, h.rejected, h.approved⟩

theorem ReportAgrees.stamp {r : ExpenseReport} (at₀ : Instant) (h : ReportAgrees r) :
    ReportAgrees (Lib.stamp at₀ r) := ⟨h.draft, h.submitted, h.rejected⟩

theorem Agrees.step {req : DeskRequest} (h : Agrees s) (hstep : desk.step s req = .ok s') :
    Agrees s' := by
  obtain ⟨p, hplan, hcommit⟩ := bind_eq_ok.mp hstep
  obtain ⟨user, -, deed⟩ := deed_of_plan hplan
  have hc := Plan.commit_eq_ok.mp hcommit
  have hdrawn := deed.rows hc
  have huntouched := deed.untouched hc (.refl s) deed.stillOpen
  generalize req.call = call at deed
  cases deed with
  | trip deed =>
    obtain ⟨hreports, hitems⟩ := deed.tables hc
    refine ⟨hdrawn.trips.forall (K := fun _ t => TripAgrees t) (fun at₀ _ _ => .stamp at₀) h.trip
      (deed.agrees h.trip), ?_, ?_⟩
    · rw [hreports]
      exact h.report
    · simp only [hreports, Stocked, includedCount, itemsOf, hitems]
      exact h.stocked
  | expense deed =>
    refine ⟨hdrawn.trips.forall (K := fun _ t => TripAgrees t) (fun at₀ _ _ => .stamp at₀) h.trip
        (deed.tripAgrees h.trip),
      hdrawn.reports.forall (K := fun _ r => ReportAgrees r) (fun at₀ _ _ => .stamp at₀) h.report
        (deed.agrees h.report),
      hdrawn.reports.forall (K := Stocked s') (fun _ _ _ => id) (fun j r hr hlocked => ?_)
        (deed.stocked hc huntouched h.stocked)⟩
    have hcount := h.stocked j r hr hlocked
    simp only [includedCount] at hcount ⊢
    rwa [(huntouched.report j r hr hlocked).1]

/-! ## The day a trip was completed -/

section
variable {s₀ : Store} {past : List DeskRequest} {req : DeskRequest} {i : Int} {t : Trip}

/-- What a run has done stays done. -/
theorem CompletedLate.append (h : CompletedLate s₀ past i t) :
    CompletedLate s₀ (past ++ [req]) i t := by
  obtain ⟨n, r, s', hget, hcall, hstep, hlate⟩ := h
  have hn : n < past.length := (List.getElem?_eq_some_iff.mp hget).1
  refine ⟨n, r, s', ?_, hcall, ?_, hlate⟩
  · rw [List.getElem?_append_left hn, hget]
  · rwa [List.take_append_of_le_length hn.le]

/-- The request that comes next completes the trip. -/
theorem CompletedLate.last (hcall : req.call = .trip (.complete i))
    (hstep : desk.step (Run.all desk.step s₀ past) req = .ok s')
    (hlate : t.endDate < req.env.today) :
    CompletedLate s₀ (past ++ [req]) i t := by
  refine ⟨past.length, req, s', by simp, hcall, ?_, hlate⟩
  rwa [List.take_left]

/-- Every trip that is completed, or has been settled since, was completed late. -/
def AllCompletedLate (s₀ : Store) (past : List DeskRequest) (s : Store) : Prop :=
  ∀ i t, s.trips.get i = some t → t.status = .completed ∨ t.status = .settled →
    CompletedLate s₀ past i t

theorem TripDeed.completedLate {call : TripCall} (deed : TripDeed s req.env user call ws)
    (hs : s = Run.all desk.step s₀ past) (hcall : req.call = .trip call)
    (hstep : desk.step s req = .ok s') :
    ∀ p ∈ tripRows s ws, p.2.status = .completed ∨ p.2.status = .settled →
      CompletedLate s₀ (past ++ [req]) p.1 p.2 := by
  subst hs
  cases deed with
  | create new records => simp [new.status]
  | update load owner editable assigned range same records =>
    rcases mem_editableStatuses.mp editable with hst | hst <;> simp [same.status, hst]
  | delete load owner status => simp
  | @complete tripId t t' _ load owner status ended moved records =>
    have hlate : CompletedLate s₀ (past ++ [req]) tripId t' := by
      subst moved
      exact .last hcall hstep ended
    simpa using fun _ => hlate
  | submit load owner status range approver moved records => simp [moved]
  | approve load approver status moved records => simp [moved]
  | reject load approver status given moved records => simp [moved]
  | reopen load owner status moved records => simp [moved]

/-- A trip is settled with the end it was completed with. -/
theorem ExpenseDeed.completedLate {call : ExpenseCall} (deed : ExpenseDeed s env user call ws)
    (h : AllCompletedLate s₀ past s) :
    ∀ p ∈ tripRows s ws, p.2.status = .completed ∨ p.2.status = .settled →
      CompletedLate s₀ (past ++ [req]) p.1 p.2 := by
  cases deed with
  | @approve _ r _ t t' _ _ load approver status trip completed moved settled records records' =>
    have hold : CompletedLate s₀ (past ++ [req]) r.tripId t := (h _ _ trip (.inl completed)).append
    have hlate : CompletedLate s₀ (past ++ [req]) r.tripId t' := by
      subst settled
      exact hold
    simpa using fun _ => hlate
  | _ => simp

theorem AllCompletedLate.settle (h : AllCompletedLate s₀ past (Run.all desk.step s₀ past)) :
    AllCompletedLate s₀ (past ++ [req]) (Run.settle (Run.all desk.step s₀ past)
      (desk.step (Run.all desk.step s₀ past) req)) := by
  have hold : AllCompletedLate s₀ (past ++ [req]) (Run.all desk.step s₀ past) :=
    fun i t ht hst => (h i t ht hst).append
  rcases hstep : desk.step (Run.all desk.step s₀ past) req with e | s'
  · exact hold
  obtain ⟨p, hplan, hcommit⟩ := bind_eq_ok.mp hstep
  obtain ⟨user, -, deed⟩ := deed_of_plan hplan
  have hdrawn := deed.rows (Plan.commit_eq_ok.mp hcommit)
  refine hdrawn.trips.forall (fun _ _ _ => id) hold ?_
  generalize hcall : req.call = call at deed
  cases deed with
  | trip deed => exact deed.completedLate rfl hcall hstep
  | expense deed => exact deed.completedLate h

end

/-! ## Runs -/

/-- After every serial run of the desk, from a store without trips and reports, every trip and every
report has the companion fields of its status. -/
theorem status_and_fields_agree {s₀ : Store} (htrips : s₀.trips.rows = [])
    (hreports : s₀.reports.rows = []) (reqs : List DeskRequest) :
    let s := Run.all desk.step s₀ reqs
    (∀ i t, s.trips.get i = some t → TripAgrees t ∧
      (t.status = .completed ∨ t.status = .settled → CompletedLate s₀ reqs i t)) ∧
    (∀ j r, s.reports.get j = some r → ReportAgrees r ∧ Stocked s j r) := by
  intro s
  have hnotrip : ∀ i t, s₀.trips.get i ≠ some t := by
    simp [Table.get_of_rows_nil htrips]
  have hnoreport : ∀ j r, s₀.reports.get j ≠ some r := by
    simp [Table.get_of_rows_nil hreports]
  have h₀ : Agrees s₀ :=
    ⟨fun i t ht => absurd ht (hnotrip i t), fun j r hr => absurd hr (hnoreport j r),
      fun j r hr => absurd hr (hnoreport j r)⟩
  have h : Agrees s := Run.invariant_of_step (fun _ _ _ hs hstep => hs.step hstep) h₀
  have hlate : AllCompletedLate s₀ reqs s :=
    Run.invariant_of_past (I := AllCompletedLate s₀) (fun i t ht => absurd ht (hnotrip i t))
      (fun _ _ hi => hi.settle) reqs
  exact ⟨fun i t ht => ⟨h.trip i t ht, hlate i t ht⟩,
    fun j r hr => ⟨h.report j r hr, h.stocked j r hr⟩⟩

/-- In the office, Kim's submitted report has an item, its centers and its time of submission. -/
theorem status_and_fields_agree_office :
    ∃ r, (Run.all desk.step Office.store
        (Office.tripDone 1 ++ Office.reportSubmitted 1)).reports.get 1 = some r ∧
      r.status = .submitted ∧ ReportAgrees r ∧
      Stocked (Run.all desk.step Office.store (Office.tripDone 1 ++ Office.reportSubmitted 1))
        1 r := by
  have hrow : ((Run.all desk.step Office.store
      (Office.tripDone 1 ++ Office.reportSubmitted 1)).reports.get 1).map ExpenseReport.status =
        some .submitted := by
    decide +kernel
  obtain ⟨r, hr, hst⟩ := Option.map_eq_some_iff.mp hrow
  exact ⟨r, hr, hst, (status_and_fields_agree rfl rfl _).2 1 r hr⟩

end Biztrip.Desk
