import Biztrip.Desk.Lineage
import Biztrip.Lib.Separated

/-!
# One decision per submission

Overlapping requests and the log of a report. Each request checks the
status it has read, and writes the status and a log row later. `Timely` is what
this takes for granted: an approval or a rejection still finds the report
submitted when it commits, and a submission or a reopening does not find it
approved. `Decided` is the invariant, `Advance` what one timely commit does to
it: an approved report stays approved, a trip is settled only along with its
report, and a decision is logged only over a submission.
-/

namespace Biztrip.Desk

open Biztrip.Lib

/-! ## The log of a report -/

/-- The log rows of report `j`, oldest first. -/
def logOf (s : Store) (j : Int) : List ActivityLog := entriesOf s .expenseReport j

def Decision (e : ActivityLog) : Prop := e.action = .approved ∨ e.action = .rejected

def Submission (e : ActivityLog) : Prop := e.action = .submitted

def statusOf (s : Store) (j : Int) : Option ExpenseReportStatus :=
  (s.reports.get j).map ExpenseReport.status

variable {seen s s' : Store} {env : Env} {user : CurrentUser} {now : Instant} {i j k : Int}
  {tr : Transition}

theorem logOf_record_trip (ref : EntityRef) :
    logOf (s.record env .trip ref tr) j = logOf s j := by
  unfold logOf
  rw [entriesOf_record, if_neg (by simp)]

theorem logOf_record_report (ref : EntityRef) :
    logOf (s.record env .expenseReport ref tr) j =
      if j = s.resolve .expenseReport ref then
        logOf s j ++ [{ tr.logRow env .expenseReport with entityId := j }]
      else logOf s j := by
  unfold logOf
  rw [entriesOf_record]
  simp only [true_and]

/-! ## The status of a report -/

theorem statusOf_of_reports (h : s'.reports = s.reports) (j : Int) :
    statusOf s' j = statusOf s j := by
  rw [statusOf, statusOf, h]

section
variable {r r' : ExpenseReport}

theorem statusOf_writtenBack (h : WrittenBack s.reports s'.reports i r r') (j : Int) :
    statusOf s' j = if j = i then (statusOf s j).map (mergeCol r.status r'.status)
      else statusOf s j := by
  obtain ⟨at₀, hget⟩ := h
  unfold statusOf
  rw [hget]
  split
  · simp [merge, Function.comp_def]
  · rfl

theorem statusOf_same (h : WrittenBack s.reports s'.reports i r r') (hs : r'.status = r.status)
    (j : Int) : statusOf s' j = statusOf s j := by
  rw [statusOf_writtenBack h, hs]
  simp [funext (mergeCol_same r.status)]

theorem statusOf_moved (h : WrittenBack s.reports s'.reports i r r') (hs : r'.status ≠ r.status) :
    statusOf s' i = (statusOf s i).map fun _ => r'.status := by
  have hm : mergeCol r.status r'.status = fun _ => r'.status :=
    funext fun cur => mergeCol_of_ne cur hs
  rw [statusOf_writtenBack h, if_pos rfl, hm]

theorem statusOf_of_ne (h : WrittenBack s.reports s'.reports i r r') (hj : j ≠ i) :
    statusOf s' j = statusOf s j := by
  rw [statusOf_writtenBack h, if_neg hj]

end

/-! ## The invariant -/

structure Decided (s : Store) : Prop where
  separated : ∀ j, Separated Decision Submission (logOf s j)
  /-- While a report is submitted, its last submission is undecided. -/
  undecided : ∀ j, statusOf s j = some .submitted → ¬ Pending Decision Submission (logOf s j)
  settled : ∀ i t, s.trips.get i = some t → t.status = .settled →
    ∃ j r, s.reports.get j = some r ∧ r.tripId = i ∧ r.status = .approved
  single : ∀ j k r r', s.reports.get j = some r → s.reports.get k = some r' →
    r.tripId = r'.tripId → j = k

/-- The report has been on its trip before, or is the only one of it. -/
def Placed (s s' : Store) (j : Int) (r' : ExpenseReport) : Prop :=
  (∃ r, s.reports.get j = some r ∧ r.tripId = r'.tripId) ∨
    ∀ k r, s'.reports.get k = some r → r.tripId = r'.tripId → k = j

/-- What a timely commit does. -/
structure Advance (s s' : Store) : Prop where
  approved : ∀ j, statusOf s j = some .approved → statusOf s' j = some .approved
  settled : ∀ i t', s'.trips.get i = some t' → t'.status = .settled →
    (∃ t, s.trips.get i = some t ∧ t.status = .settled) ∨
      ∃ j r, s'.reports.get j = some r ∧ r.tripId = i ∧ r.status = .approved
  log : ∀ j, (logOf s' j = logOf s j ∧
      (statusOf s' j = some .submitted → statusOf s j = some .submitted)) ∨
    ∃ e, logOf s' j = logOf s j ++ [e] ∧ (Decision e → statusOf s j = some .submitted) ∧
      (statusOf s' j = some .submitted →
        ¬ Decision e ∧ (Submission e ∨ statusOf s j = some .submitted))
  placed : ∀ j r, s'.reports.get j = some r → Placed s s' j r

theorem Decided.of_empty (htrips : s.trips.rows = []) (hreports : s.reports.rows = [])
    (hlog : s.activityLog.rows = []) : Decided s where
  separated j := by simp [logOf, entriesOf, hlog, separated_nil]
  undecided j h := by simp [statusOf, Table.get_of_rows_nil hreports] at h
  settled i t ht := by simp [Table.get_of_rows_nil htrips] at ht
  single j k r r' hr := by simp [Table.get_of_rows_nil hreports] at hr

theorem Decided.advance (h : Decided s) (hl : Lineage s s') (ha : Advance s s') : Decided s' where
  separated j := by
    rcases ha.log j with ⟨hlog, -⟩ | ⟨e, hlog, hdec, -⟩
    · rw [hlog]
      exact h.separated j
    · rw [hlog]
      exact (h.separated j).snoc fun he => h.undecided j (hdec he)
  undecided j hs := by
    rcases ha.log j with ⟨hlog, hsub⟩ | ⟨e, hlog, -, hsub⟩
    · rw [hlog]
      exact h.undecided j (hsub hs)
    · obtain ⟨hdec, hmark | hold⟩ := hsub hs
      · exact hlog ▸ not_pending_snoc_of_mark hmark hdec
      · exact hlog ▸ not_pending_snoc_of_other (h.undecided j hold) hdec
  settled i t' ht' hs := by
    rcases ha.settled i t' ht' hs with ⟨t, ht, hst⟩ | hr
    · obtain ⟨j, r, hr, htrip, happr⟩ := h.settled i t ht hst
      obtain ⟨r', hr', htrip'⟩ := hl.get_report hr
      have hkept := ha.approved j (by rw [statusOf, hr, Option.map_some, happr])
      rw [statusOf, hr', Option.map_some, Option.some.injEq] at hkept
      exact ⟨j, r', hr', htrip'.trans htrip, hkept⟩
    · exact hr
  single j k r r' hr hr' he := by
    rcases ha.placed j r hr with ⟨r₀, hr₀, he₀⟩ | honly
    · rcases ha.placed k r' hr' with ⟨r₁, hr₁, he₁⟩ | honly
      · exact h.single j k r₀ r₁ hr₀ hr₁ (by rw [he₀, he, he₁])
      · exact honly j r hr he
    · exact (honly k r' hr' he.symm).symm

theorem placed_of_writtenBack {r r' : ExpenseReport} (hw : WrittenBack s.reports s'.reports i r r')
    (htrip : r'.tripId = r.tripId) {row : ExpenseReport} (hj : s'.reports.get j = some row) :
    Placed s s' j row := by
  rcases hw.cases hj with ⟨rfl, cur, at₀, hcur, rfl⟩ | ⟨-, hj⟩
  · exact .inl ⟨cur, hcur, (follows_tripId.merge htrip cur).symm⟩
  · exact .inl ⟨row, hj, rfl⟩

theorem placed_of_reports (h : s'.reports = s.reports) {row : ExpenseReport}
    (hj : s'.reports.get j = some row) : Placed s s' j row := .inl ⟨row, h ▸ hj, rfl⟩

/-! ## One commit -/

/-- The status that the request has checked still allows what it writes. -/
def Timely (s _seen : Store) : DeskCall → Prop
  | .expense (.approve j) => statusOf s j = some .submitted
  | .expense (.reject j _) => statusOf s j = some .submitted
  | .expense (.submit j) => statusOf s j ≠ some .approved
  | .expense (.reopen j) => statusOf s j ≠ some .approved
  | _ => True

instance {s seen : Store} : ∀ {call : DeskCall}, Decidable (Timely s seen call)
  | .expense (.approve j) | .expense (.reject j _) =>
    inferInstanceAs (Decidable (statusOf s j = some .submitted))
  | .expense (.submit j) | .expense (.reopen j) =>
    inferInstanceAs (Decidable (statusOf s j ≠ some .approved))
  | .trip _ | .expense (.create _) | .expense (.update _ _) | .expense (.addItem _ _)
  | .expense (.updateItem _ _) | .expense (.deleteItem _) => inferInstanceAs (Decidable True)

/-- A trip is not settled by writing back another status. -/
theorem settled_of_writtenBack {t t' : Trip} (h : WrittenBack s.trips s'.trips i t t')
    (hs : t'.status ≠ .settled) {u : Trip} (hu : s'.trips.get k = some u)
    (hst : u.status = .settled) :
    ∃ u₀, s.trips.get k = some u₀ ∧ u₀.status = .settled := by
  rcases h.cases hu with ⟨rfl, cur, at₀, hcur, rfl⟩ | ⟨-, hu⟩
  · refine ⟨cur, hcur, ?_⟩
    have hst : mergeCol t.status t'.status cur.status = .settled := hst
    rcases mergeCol_eq_or t.status t'.status cur.status with he | he
    · rwa [he] at hst
    · exact absurd (he ▸ hst) hs
  · exact ⟨u, hu, hst⟩

/-- A trip request does not touch the log of a report. -/
theorem TripDeed.logOf {call : TripCall} {ws : List Write} (deed : TripDeed seen env user call ws)
    (hc : ws.foldlM (Store.flush now) s = .ok s') (j : Int) : logOf s' j = logOf s j := by
  cases deed with
  | delete => exact (commit_delete_trip hc).2 ▸ rfl
  | _ =>
    obtain ⟨-, u, -, rfl⟩ := commit_trip hc
    exact logOf_record_trip _

theorem TripDeed.advance {call : TripCall} {ws : List Write} (deed : TripDeed seen env user call ws)
    (hc : ws.foldlM (Store.flush now) s = .ok s') : Advance s s' := by
  have hstatus := statusOf_of_reports (deed.tables hc).1
  refine ⟨fun j h => (hstatus j).trans h, fun i t' ht' hs => .inl ?_,
    fun j => .inl ⟨deed.logOf hc j, fun h => (hstatus j).symm.trans h⟩,
    fun j r => placed_of_reports (deed.tables hc).1⟩
  cases deed.change hc with
  | create status trips =>
    rcases Table.get_insert_eq_some (trips ▸ ht') with ⟨-, rfl⟩ | ⟨-, ht⟩
    · rw [status] at hs
      cases hs
    · exact ⟨t', ht, hs⟩
  | edit written status => exact settled_of_writtenBack written status ht' hs
  | delete trips => exact ⟨t', (Table.get_delete_eq_some (trips ▸ ht')).2, hs⟩
  | move written status content => exact settled_of_writtenBack written status ht' hs

section
variable {r r' : ExpenseReport} {reports : Table ExpenseReport}

/-- A log row that decides nothing, while no report becomes submitted. -/
theorem Advance.of_quiet (ht : s'.trips = s.trips)
    (happr : ∀ k, statusOf s k = some .approved → statusOf s' k = some .approved)
    (hsub : ∀ k, statusOf s' k = some .submitted → statusOf s k = some .submitted)
    (hlog : ∀ k, logOf s' k = logOf s k ∨ ∃ e, logOf s' k = logOf s k ++ [e] ∧ ¬ Decision e)
    (hplaced : ∀ k row, s'.reports.get k = some row → Placed s s' k row) : Advance s s' := by
  refine ⟨happr, fun i t ht' hst => .inl ⟨t, ht ▸ ht', hst⟩, fun k => ?_, hplaced⟩
  rcases hlog k with he | ⟨e, he, hdec⟩
  · exact .inl ⟨he, hsub k⟩
  · exact .inr ⟨e, he, fun h => absurd h hdec, fun h => ⟨hdec, .inr (hsub k h)⟩⟩

theorem Advance.of_edit (hw : WrittenBack s.reports s'.reports j r r') (hs : r'.status = r.status)
    (htrip : r'.tripId = r.tripId) (ht : s'.trips = s.trips)
    (hlog : ∀ k, logOf s' k = logOf s k ∨ ∃ e, logOf s' k = logOf s k ++ [e] ∧ ¬ Decision e) :
    Advance s s' :=
  .of_quiet ht (fun k h => (statusOf_same hw hs k).trans h)
    (fun k h => (statusOf_same hw hs k).symm.trans h) hlog
    fun _ _ => placed_of_writtenBack hw htrip

theorem Advance.of_insert (hr : s'.reports = s.reports.insert r) (hs : r.status = .draft)
    (hcheck : s.check (.report (.insert r)) = .ok ()) (ht : s'.trips = s.trips)
    (hlog : ∀ k, logOf s' k = logOf s k ∨ ∃ e, logOf s' k = logOf s k ++ [e] ∧ ¬ Decision e) :
    Advance s s' := by
  refine .of_quiet ht (fun k h => ?_) (fun k h => ?_) hlog fun k row hk => ?_
  · obtain ⟨r₀, hr₀, hst⟩ := Option.map_eq_some_iff.mp h
    rw [statusOf, hr, Table.get_insert_of_some hr₀, Option.map_some, hst]
  · obtain ⟨r₀, hr₀, hst⟩ := Option.map_eq_some_iff.mp h
    rcases Table.get_insert_eq_some (hr ▸ hr₀) with ⟨-, rfl⟩ | ⟨-, hr₀⟩
    · rw [hs] at hst
      cases hst
    · rw [statusOf, hr₀, Option.map_some, hst]
  · rcases Table.get_insert_eq_some (hr ▸ hk) with ⟨rfl, rfl⟩ | ⟨-, hold⟩
    · refine .inr fun m row' hm he => ?_
      rcases Table.get_insert_eq_some (hr ▸ hm) with ⟨rfl, -⟩ | ⟨-, hm⟩
      · rfl
      · exact absurd he (single_of_check hcheck hm)
    · exact .inl ⟨row, hold, rfl⟩

/-- A history that decides nothing. -/
theorem logOf_record_quiet (ref : EntityRef) (h : tr.action = .created ∨ tr.action = .updated)
    (k : Int) :
    logOf (s.record env .expenseReport ref tr) k = logOf s k ∨
      ∃ e, logOf (s.record env .expenseReport ref tr) k = logOf s k ++ [e] ∧ ¬ Decision e := by
  rw [logOf_record_report]
  split
  · exact .inr ⟨_, rfl, by rcases h with h | h <;> simp [Decision, Transition.logRow, h]⟩
  · exact .inl rfl

/-- A transition of a report, with its log row. -/
theorem Advance.of_move
    (ha : (RowWrite.update j r r').apply now Fault.staleData s.reports = .ok reports)
    (hs : r'.status ≠ r.status) (htrip : r'.tripId = r.tripId)
    (hkept : statusOf s j = some .approved → r'.status = .approved)
    (hdec : tr.action = .approved ∨ tr.action = .rejected → statusOf s j = some .submitted)
    (hsub : r'.status = .submitted → tr.action = .submitted) :
    Advance s (Store.record { s with reports := reports } env .expenseReport (.stored j) tr) := by
  have hw : WrittenBack s.reports
      (Store.record { s with reports := reports } env .expenseReport (.stored j) tr).reports
      j r r' :=
    writtenBack_of_apply ha
  have hmoved := statusOf_moved hw hs
  refine ⟨fun k h => ?_, fun i t ht hst => .inl ⟨t, ht, hst⟩, fun k => ?_,
    fun k row => placed_of_writtenBack hw htrip⟩
  · by_cases hk : k = j
    · subst hk
      rw [hmoved, h, Option.map_some, hkept h]
    · rw [statusOf_of_ne hw hk, h]
  · rw [logOf_record_report]
    by_cases hk : k = j
    · subst hk
      refine .inr ⟨_, if_pos rfl, hdec, fun h => ?_⟩
      rw [hmoved, Option.map_eq_some_iff] at h
      obtain ⟨_, -, h⟩ := h
      have hact := hsub h
      exact ⟨by simp [Decision, Transition.logRow, hact], .inl hact⟩
    · exact .inl ⟨if_neg hk, fun h => (statusOf_of_ne hw hk).symm.trans h⟩

/-- The settlement of a trip along with its report. -/
theorem Advance.of_settlement {s₁ : Store} {i : Int} {t t' : Trip} (h : Advance s s₁)
    (hreports : s'.reports = s₁.reports) (hlog : ∀ j, logOf s' j = logOf s₁ j)
    (hw : WrittenBack s₁.trips s'.trips i t t')
    (happr : ∃ j r, s₁.reports.get j = some r ∧ r.tripId = i ∧ r.status = .approved) :
    Advance s s' := by
  have hstatus := statusOf_of_reports hreports
  refine ⟨fun j hj => (hstatus j).trans (h.approved j hj), fun k u hu hst => ?_, fun j => ?_,
    fun j r hr => ?_⟩
  · rw [hreports]
    rcases hw.cases hu with ⟨rfl, -⟩ | ⟨-, hu⟩
    · exact .inr happr
    · exact h.settled k u hu hst
  · rw [hlog, hstatus]
    exact h.log j
  · have := h.placed j r (hreports ▸ hr)
    unfold Placed at this ⊢
    rwa [hreports]

end

theorem ExpenseDeed.advance {call : ExpenseCall} {ws : List Write}
    (deed : ExpenseDeed seen env user call ws) (hc : ws.foldlM (Store.flush now) s = .ok s')
    (hl : Lineage seen s) (htimely : Timely s seen (.expense call)) : Advance s s' := by
  cases deed with
  | create load owner reportable single new records =>
    obtain ⟨hcheck, u, happly, rfl⟩ := commit_report hc
    rw [RowWrite.apply_insert, Except.ok.injEq] at happly
    subst happly
    exact .of_insert rfl new.status hcheck rfl (logOf_record_quiet _ (.inl records.action))
  | update load centers assigned records =>
    obtain ⟨-, u, happly, rfl⟩ := commit_report hc
    exact .of_edit (writtenBack_of_apply happly) (by rw [assigned])
      (by rw [assigned]) rfl (logOf_record_quiet _ (.inr records.action))
  | addItem load new flush recalc =>
    obtain ⟨u, u', -, -, hreport, rfl⟩ := commit_edit hc
    exact .of_edit (writtenBack_of_apply hreport) rfl rfl rfl fun k => .inl rfl
  | updateItem int4 get load checked assigned flush recalc =>
    obtain ⟨u, u', -, -, hreport, rfl⟩ := commit_edit hc
    exact .of_edit (writtenBack_of_apply hreport) rfl rfl rfl fun k => .inl rfl
  | deleteItem int4 get load flush recalc =>
    obtain ⟨u, u', -, -, hreport, rfl⟩ := commit_edit hc
    exact .of_edit (writtenBack_of_apply hreport) rfl rfl rfl fun k => .inl rfl
  | submit load owner status trip completed present centers items recalc approver moved records =>
    obtain ⟨-, u, happly, rfl⟩ := commit_report hc
    subst moved
    exact .of_move happly (by simp [status]) rfl (fun h => absurd h htimely)
      (by simp [records.action]) fun _ => records.action
  | @approve reportId r r' t t' tr tr' load approver status trip completed moved settled records =>
    obtain ⟨u, u', hreport, htrip, rfl⟩ := commit_approve hc
    subst moved
    have hmove : Advance s
        (Store.record { s with reports := u } env .expenseReport (.stored reportId) tr) :=
      .of_move hreport (by simp [status]) rfl (fun _ => rfl) (fun _ => htimely) (by simp)
    refine hmove.of_settlement rfl (fun j => logOf_record_trip _) (writtenBack_of_apply htrip) ?_
    -- the committed row is on the trip of the row that was loaded
    obtain ⟨cur, hcur, hcurTrip⟩ := hl.get_report (Expenses.loadVisibleReport_eq_ok.mp load).2.1
    obtain ⟨at₀, hget⟩ := (writtenBack_of_apply hreport).get_self hcur
    exact ⟨_, _, hget, by simpa [merge] using hcurTrip, by simp [merge, mergeCol, status]⟩
  | reject load approver status given moved records =>
    obtain ⟨-, u, happly, rfl⟩ := commit_report hc
    subst moved
    exact .of_move happly (by simp [status]) rfl (fun h => absurd (htimely.symm.trans h) (by simp))
      (fun _ => htimely) (by simp)
  | reopen load owner status moved records =>
    obtain ⟨-, u, happly, rfl⟩ := commit_report hc
    subst moved
    exact .of_move happly (by simp [status]) rfl (fun h => absurd h htimely)
      (by simp [records.action]) (by simp)

theorem Deed.advance {call : DeskCall} {ws : List Write} (deed : Deed seen env user call ws)
    (hc : ws.foldlM (Store.flush now) s = .ok s') (hl : Lineage seen s)
    (htimely : Timely s seen call) : Advance s s' := by
  cases deed with
  | trip deed => exact deed.advance hc
  | expense deed => exact deed.advance hc hl htimely

theorem Advance.of_sameDesk (h : SameDesk s s') : Advance s s' :=
  .of_quiet h.trips (fun k hk => (statusOf_of_reports h.reports k).trans hk)
    (fun k hk => (statusOf_of_reports h.reports k).symm.trans hk)
    (fun k => .inl (by rw [logOf, logOf, entriesOf, entriesOf, h.activityLog]))
    fun _ _ => placed_of_reports h.reports

theorem advance_of_flight {sec : Security} (f : (system sec).InFlight) (hl : Lineage f.seen s)
    (htimely : Meets Timely s f) (h : (system sec).commit s f.writes = .ok s') :
    Advance s s' ∧ Lineage s s' := by
  rcases flight_cases f h with ⟨userId, call, user, ws, hcall, deed, hc⟩ | hsame
  · exact ⟨deed.advance hc hl (htimely userId call hcall), deed.lineage hc⟩
  · exact ⟨.of_sameDesk hsame, .of_sameDesk hsame⟩

theorem keeps_decided (sec : Security) : (system sec).Keeps Decided Lineage (Meets Timely) where
  refl := .refl
  trans _ _ _ := .trans
  commit s f s' hs _ hl htimely h := by
    obtain ⟨hadvance, hstep⟩ := advance_of_flight f hl htimely h
    exact ⟨hs.advance hstep hadvance, hstep⟩

/-- The guards establish the status that is asked for. -/
theorem Deed.timely {call : DeskCall} {ws : List Write} (deed : Deed seen env user call ws) :
    Timely seen seen call := by
  have hstatus : ∀ {j : Int} {r : ExpenseReport},
      Expenses.loadVisibleReport seen j user = .ok r → statusOf seen j = some r.status := by
    intro j r load
    rw [statusOf, (Expenses.loadVisibleReport_eq_ok.mp load).2.1, Option.map_some]
  cases deed with
  | trip deed => trivial
  | expense deed =>
    cases deed with
    | approve load approver status => exact (hstatus load).trans (by rw [status])
    | reject load approver status => exact (hstatus load).trans (by rw [status])
    | submit load owner status =>
      intro h
      simp [hstatus load, status] at h
    | reopen load owner status =>
      intro h
      simp [hstatus load, status] at h
    | _ => trivial

/-! ## Interleavings -/

section
variable (sec : Security)

/-- Requests overlap, from a state that a serial run reaches from a store without trips, reports and
history. If every desk request is timely, then no two decisions on a report are logged without a
submission between them, an approved report stays approved, and the report of a settled trip is
approved. -/
theorem one_decision_per_submission {s₀ : Store} (htrips : s₀.trips.rows = [])
    (hreports : s₀.reports.rows = []) (hlog : s₀.activityLog.rows = [])
    (reqs : List (Request Call)) (evs : List (Machine.Event (Request Call)))
    (htimely : Machine.Config.Each (Meets Timely)
      (Machine.Config.quiet (system sec) (Run.all (system sec).step s₀ reqs)) evs) :
    let c := Machine.Config.quiet (system sec) (Run.all (system sec).step s₀ reqs)
    let s := (c.exec evs).db
    (∀ j, Separated Decision Submission (logOf s j)) ∧
    Machine.Config.Across
      (fun s s' => ∀ j, statusOf s j = some .approved → statusOf s' j = some .approved) c evs ∧
    ∀ j r t, s.reports.get j = some r → s.trips.get r.tripId = some t → t.status = .settled →
      r.status = .approved := by
  intro c s
  have hc : c.Sound Decided Lineage :=
    Machine.Config.sound_quiet <| (keeps_decided sec).run (meets_seen Deed.timely)
      (.of_empty htrips hreports hlog) reqs
  have hs : Decided s := (hc.exec (keeps_decided sec) htimely).db
  refine ⟨hs.separated, ?_, fun j r t hr ht hst => ?_⟩
  · refine hc.across (keeps_decided sec) (fun _ _ => id) (fun a f a' _ _ hl hp h => ?_) htimely
    exact (advance_of_flight f hl hp h).1.approved
  · obtain ⟨k, r', hr', htrip, happr⟩ := hs.settled _ t ht hst
    have hjk := hs.single k j r' r hr' hr htrip
    rw [hjk, hr, Option.some.injEq] at hr'
    rw [hr', happr]

end

/-! ## In the office -/

def ask (userId : Int) (call : ExpenseCall) : Request Call :=
  ⟨Office.env, .desk userId (.expense call)⟩

/-- Kim's report up to its submission. -/
def submittedReport : List (Request Call) :=
  (Office.tripDone 1 ++ Office.reportSubmitted 1).map fun r => ⟨r.env, .desk r.userId r.call⟩

/-- Kim submits twice, and the second submission commits after Lee's approval has read the first. -/
def submittedTwice : List (Machine.Event (Request Call)) :=
  [.begin (ask 1 (.submit 1)), .begin (ask 1 (.submit 1)), .commit 0, .begin (ask 2 (.approve 1)),
    .commit 0, .commit 0]

theorem one_decision_per_submission_office :
    let c := Machine.Config.quiet (system Office.sec)
      (Run.all (system Office.sec).step Office.store submittedReport.dropLast)
    let s := (c.exec submittedTwice).db
    (∀ j, Separated Decision Submission (logOf s j)) ∧
    Machine.Config.Across
      (fun s s' => ∀ j, statusOf s j = some .approved → statusOf s' j = some .approved) c
      submittedTwice ∧
    ∀ j r t, s.reports.get j = some r → s.trips.get r.tripId = some t → t.status = .settled →
      r.status = .approved :=
  one_decision_per_submission Office.sec rfl rfl rfl submittedReport.dropLast submittedTwice
    (by decide +kernel)

/-- Lee's approval and Lee's rejection both read the submitted report, and then both commit. -/
def bothDecisions : List (Machine.Event (Request Call)) :=
  [.begin (ask 2 (.approve 1)), .begin (ask 2 (.reject 1 ⟨"No receipt"⟩)), .commit 0, .commit 0]

/-- A request to submit, decide or reopen report `j`, by the one who may. -/
def OnReport (s : Store) (j : Int) : Machine.Event (Request Call) → Prop
  | .commit _ => True
  | .begin req => ∃ r, s.reports.get j = some r ∧
      match req.call with
      | .desk userId (.expense (.submit k)) => k = j ∧ userId = r.userId
      | .desk userId (.expense (.reopen k)) => k = j ∧ userId = r.userId
      | .desk userId (.expense (.approve k)) => k = j ∧ some userId = r.approverId
      | .desk userId (.expense (.reject k _)) => k = j ∧ some userId = r.approverId
      | _ => False

/-- The report ends up rejected, on a trip that is settled, with two decisions in its log. -/
theorem approved_and_rejected :
    ¬ ∀ (s₀ : Store) (reqs : List (Request Call)) (evs : List (Machine.Event (Request Call)))
      (j : Int), s₀.trips.rows = [] → s₀.reports.rows = [] → s₀.activityLog.rows = [] →
      (∀ e ∈ evs, OnReport (Run.all (system Office.sec).step s₀ reqs) j e) →
      let c := Machine.Config.quiet (system Office.sec) (Run.all (system Office.sec).step s₀ reqs)
      let s := (c.exec evs).db
      Separated Decision Submission (logOf s j) ∧
      Machine.Config.Across
        (fun s s' => statusOf s j = some .approved → statusOf s' j = some .approved) c evs ∧
      ∀ r t, s.reports.get j = some r → s.trips.get r.tripId = some t → t.status = .settled →
        r.status = .approved := by
  intro hall
  have hread : ((Run.all (system Office.sec).step Office.store submittedReport).reports.get 1).map
      ExpenseReport.approverId = some (some 2) := by
    decide +kernel
  obtain ⟨r₀, hr₀, happr⟩ := Option.map_eq_some_iff.mp hread
  have hon : ∀ e ∈ bothDecisions,
      OnReport (Run.all (system Office.sec).step Office.store submittedReport) 1 e := by
    intro e he
    simp only [bothDecisions, List.mem_cons, List.not_mem_nil, or_false] at he
    rcases he with rfl | rfl | rfl | rfl
    · exact ⟨r₀, hr₀, rfl, happr.symm⟩
    · exact ⟨r₀, hr₀, rfl, happr.symm⟩
    · trivial
    · trivial
  have hall := (hall Office.store submittedReport bothDecisions 1 rfl rfl rfl hon).2.2
  have hreport : (((Machine.Config.quiet (system Office.sec)
      (Run.all (system Office.sec).step Office.store submittedReport)).exec
        bothDecisions).db.reports.get 1).map (fun r => (r.tripId, r.status)) =
          some (1, .rejected) := by
    decide +kernel
  have htrip : (((Machine.Config.quiet (system Office.sec)
      (Run.all (system Office.sec).step Office.store submittedReport)).exec
        bothDecisions).db.trips.get 1).map Trip.status = some .settled := by
    decide +kernel
  obtain ⟨r, hr, he⟩ := Option.map_eq_some_iff.mp hreport
  obtain ⟨t, ht, hst⟩ := Option.map_eq_some_iff.mp htrip
  rw [Prod.mk.injEq] at he
  have happroved := hall r t hr (he.1 ▸ ht) hst
  rw [he.2] at happroved
  cases happroved

end Biztrip.Desk
