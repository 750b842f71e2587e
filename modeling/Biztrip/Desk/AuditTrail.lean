import Biztrip.Desk.Decisions
import Biztrip.Desk.Effect
import Biztrip.Lib.Trail

/-!
# The log replays to the current status

Every request that changes a status writes one log row for it, with the status it has read
and the one it writes; the approval of a report writes two, in two machines. `Trails` says
that the rows of each trip and each report lead to its status. The timeline
shows them in the order they were written, as long as the clock of the
transactions never goes back.
-/

namespace Biztrip.Desk

open Biztrip.Lib Trips Expenses

/-- A pair of `ALLOWED_TRANSITIONS`, as the log spells it. -/
def TripStep (a b : String) : Prop :=
  ∃ x y : TripStatus, a = x.value ∧ b = y.value ∧ y ∈ allowedTransitions x

/-- A pair of `EXPENSE_ALLOWED_TRANSITIONS`. -/
def ReportStep (a b : String) : Prop :=
  ∃ x y : ExpenseReportStatus, a = x.value ∧ b = y.value ∧ y ∈ expenseAllowedTransitions x

/-- The log leads from `DRAFT` to the status, by steps of the machine. -/
def Replays (step : String → String → Prop) (log : List ActivityLog) (status : String) : Prop :=
  Trail ActivityLog.fromStatus ActivityLog.toStatus step "DRAFT" log status

/-! ## One table and its log -/

section
variable {ρ ε : Type} [Merge ρ] {step : String → String → Prop} {status : ρ → String}
  {t u : Table ρ} {log log' : Int → List ActivityLog} {ref : EntityRef} {tr : Transition}
  {i : Int} {r r' : ρ}

/-- The log of every row replays to its status, and keys not given out yet have none. -/
structure LogsOf (step : String → String → Prop) (status : ρ → String) (t : Table ρ)
    (log : Int → List ActivityLog) : Prop where
  replays : ∀ i r, t.get i = some r → Replays step (log i) (status r)
  fresh : ∀ i, t.next ≤ i → log i = []

/-- A statement on a row and the log row that goes with it. -/
inductive Logs (step : String → String → Prop) (status : ρ → String) (t : Table ρ) :
    RowWrite ρ → EntityRef → Transition → Prop where
  | create {r : ρ} {tr : Transition} (starts : status r = "DRAFT") (src : tr.fromStatus = none)
    (dst : tr.toStatus = some (status r)) : Logs step status t (.insert r) .inserted tr
  | change {i : Int} {r r' : ρ} {tr : Transition} (get : t.get i = some r)
    (src : tr.fromStatus = some (status r)) (dst : tr.toStatus = some (status r'))
    (legal : status r' = status r ∨ step (status r) (status r')) :
    Logs step status t (.update i r r') (.stored i) tr

variable [DecidableEq ρ] {now : Instant} {stale : ε} {w : RowWrite ρ}

theorem LogsOf.append (h : LogsOf step status t log) (hw : Logs step status t w ref tr)
    (hstatus : ∀ at₀ r, status (stamp at₀ r) = status r) (ha : w.apply now stale t = .ok u)
    (hlog : ∀ i, ∃ e, e.fromStatus = tr.fromStatus ∧ e.toStatus = tr.toStatus ∧
      log' i = if i = w.key t then log i ++ [e] else log i) : LogsOf step status u log' := by
  have hother : ∀ i, i ≠ w.key t → log' i = log i := by
    intro i hi
    obtain ⟨e, -, -, he⟩ := hlog i
    rw [he, if_neg hi]
  obtain ⟨e, hsrc, hdst, hkey⟩ := hlog (w.key t)
  rw [if_pos rfl] at hkey
  have hlt : w.key t < u.next := by
    cases hw with
    | create starts src dst =>
      rw [RowWrite.apply_insert, Except.ok.injEq] at ha
      rw [← ha, Table.next_insert]
      exact Int.lt_succ t.next
    | change get src dst legal =>
      exact Int.lt_of_lt_of_le (Table.get_lt_next get) (RowWrite.next_le ha)
  refine ⟨fun i r hr => ?_, fun i hi => ?_⟩
  · by_cases hi : i = w.key t
    · subst hi
      rw [hkey]
      cases hw with
      | create starts src dst =>
        rw [RowWrite.apply_insert, Except.ok.injEq] at ha
        subst ha
        rw [RowWrite.key, Table.get_insert_next, Option.some.injEq] at hr
        cases hr
        have hnone : log (RowWrite.key t (.insert r)) = [] := h.fresh t.next (Int.le_refl _)
        rw [hnone, starts]
        exact .single (hsrc.trans src) (hdst.trans (dst.trans (by rw [starts])))
      | change get src dst legal =>
        obtain ⟨at₀, hget⟩ := (updated_of_apply get ha).get_self
        rw [RowWrite.key, hget, Option.some.injEq] at hr
        subst hr
        rw [hstatus]
        exact (h.replays _ _ get).snoc (hsrc.trans src) (hdst.trans dst) legal
    · rw [hother i hi]
      rw [RowWrite.get_of_ne ha hi] at hr
      exact h.replays i r hr
  · rw [hother i (by omega)]
    exact h.fresh i (Int.le_trans (RowWrite.next_le ha) hi)

/-- A change that keeps the status needs no log row. -/
theorem LogsOf.quiet (h : LogsOf step status t log) (get : t.get i = some r)
    (hsame : status r' = status r) (hstatus : ∀ at₀ r, status (stamp at₀ r) = status r)
    (ha : (RowWrite.update i r r').apply now stale t = .ok u) : LogsOf step status u log := by
  refine ⟨fun j row hj => ?_, fun j hj => h.fresh j (Int.le_trans (RowWrite.next_le ha) hj)⟩
  rcases (updated_of_apply get ha).cases hj with ⟨rfl, at₀, rfl⟩ | ⟨-, hj⟩
  · rw [hstatus, hsame]
    exact h.replays _ _ get
  · exact h.replays j row hj

omit [Merge ρ] [DecidableEq ρ] in
theorem LogsOf.delete (h : LogsOf step status t log) : LogsOf step status (t.delete i) log :=
  ⟨fun j row hj => h.replays j row (Table.get_delete_eq_some hj).2, fun j hj => h.fresh j hj⟩

omit [Merge ρ] [DecidableEq ρ] in
theorem LogsOf.of_nil (ht : t.rows = []) (hlog : ∀ i, log i = []) : LogsOf step status t log :=
  ⟨fun i r hr => by simp [Table.get_of_rows_nil ht] at hr, fun i _ => hlog i⟩

end

/-! ## Both machines -/

structure Trails (s : Store) : Prop where
  trips : LogsOf TripStep (fun t : Trip => t.status.value) s.trips (entriesOf s .trip)
  reports : LogsOf ReportStep (fun r : ExpenseReport => r.status.value) s.reports
    (entriesOf s .expenseReport)

variable {s s' : Store} {env : Env} {user : CurrentUser} {now : Instant} {ws : List Write}
  {ref : EntityRef} {tr : Transition}

theorem Trails.recordTrip {w : RowWrite Trip} {u : Table Trip} (h : Trails s)
    (hw : Logs TripStep (fun t : Trip => t.status.value) s.trips w ref tr)
    (ha : w.apply now Fault.staleData s.trips = .ok u) :
    Trails (Store.record { s with trips := u } env .trip ref tr) := by
  have hkey : Store.resolve { s with trips := u } .trip ref = w.key s.trips := by
    cases hw with
    | create =>
      rw [RowWrite.apply_insert, Except.ok.injEq] at ha
      subst ha
      exact Int.add_sub_cancel s.trips.next 1
    | change => rfl
  refine ⟨h.trips.append hw (fun _ _ => rfl) ha fun i =>
    ⟨{ tr.logRow env .trip with entityId := i }, rfl, rfl, ?_⟩, ?_⟩
  · rw [entriesOf_record, hkey]
    simp only [true_and]
    rfl
  · have hsame : entriesOf (Store.record { s with trips := u } env .trip ref tr) .expenseReport =
        entriesOf s .expenseReport := by
      funext i
      rw [entriesOf_record, if_neg (by simp)]
      rfl
    rw [hsame]
    exact h.reports

theorem Trails.recordReport {w : RowWrite ExpenseReport} {u : Table ExpenseReport} (h : Trails s)
    (hw : Logs ReportStep (fun r : ExpenseReport => r.status.value) s.reports w ref tr)
    (ha : w.apply now Fault.staleData s.reports = .ok u) :
    Trails (Store.record { s with reports := u } env .expenseReport ref tr) := by
  have hkey : Store.resolve { s with reports := u } .expenseReport ref = w.key s.reports := by
    cases hw with
    | create =>
      rw [RowWrite.apply_insert, Except.ok.injEq] at ha
      subst ha
      exact Int.add_sub_cancel s.reports.next 1
    | change => rfl
  refine ⟨?_, h.reports.append hw (fun _ _ => rfl) ha fun i =>
    ⟨{ tr.logRow env .expenseReport with entityId := i }, rfl, rfl, ?_⟩⟩
  · have hsame : entriesOf (Store.record { s with reports := u } env .expenseReport ref tr) .trip =
        entriesOf s .trip := by
      funext i
      rw [entriesOf_record, if_neg (by simp)]
      rfl
    rw [hsame]
    exact h.trips
  · rw [entriesOf_record, hkey]
    simp only [true_and]
    rfl

/-- An edit of the items writes no log row, and the report keeps its status. -/
theorem Trails.edit {j : Int} {r : ExpenseReport} {total : Krw} {items : Table ExpenseItem}
    {reports : Table ExpenseReport} (h : Trails s) (get : s.reports.get j = some r)
    (ha : (RowWrite.update j r { r with totalAmountKrw := total }).apply now Fault.staleData
      s.reports = .ok reports) : Trails { s with items := items, reports := reports } := by
  have hsame : { r with totalAmountKrw := total }.status.value = r.status.value := rfl
  exact ⟨h.trips, h.reports.quiet get hsame (fun _ _ => rfl) ha⟩

theorem TripDeed.trails {call : TripCall} (deed : TripDeed s env user call ws) (h : Trails s)
    (hc : ws.foldlM (Store.flush now) s = .ok s') : Trails s' := by
  have get : ∀ {i : Int} {t : Trip}, loadVisibleTrip s i user = .ok t → s.trips.get i = some t :=
    fun load => (loadVisibleTrip_eq_ok.mp load).2.1
  cases deed with
  | delete load owner status =>
    obtain ⟨-, rfl⟩ := commit_delete_trip hc
    exact ⟨h.trips.delete, h.reports⟩
  | create new records =>
    obtain ⟨-, u, happly, rfl⟩ := commit_trip hc
    refine h.recordTrip (.create ?_ records.fromStatus ?_) happly
    · rw [new.status]
      rfl
    · rw [new.status]
      exact records.toStatus
  | update load owner editable assigned range same records =>
    obtain ⟨-, u, happly, rfl⟩ := commit_trip hc
    refine h.recordTrip (.change (get load) records.fromStatus ?_ (.inl ?_)) happly
    · rw [same.status]
      exact records.toStatus
    · rw [same.status]
  | submit load owner status range approver moved records =>
    obtain ⟨-, u, happly, rfl⟩ := commit_trip hc
    subst moved
    exact h.recordTrip (.change (get load) records.fromStatus records.toStatus
      (.inr ⟨_, _, rfl, rfl, by simp [status, allowedTransitions]⟩)) happly
  | approve load approver status moved records =>
    obtain ⟨-, u, happly, rfl⟩ := commit_trip hc
    subst moved
    exact h.recordTrip (.change (get load) records.fromStatus records.toStatus
      (.inr ⟨_, _, rfl, rfl, by simp [status, allowedTransitions]⟩)) happly
  | reject load approver status given moved records =>
    obtain ⟨-, u, happly, rfl⟩ := commit_trip hc
    subst moved
    exact h.recordTrip (.change (get load) records.fromStatus records.toStatus
      (.inr ⟨_, _, rfl, rfl, by simp [status, allowedTransitions]⟩)) happly
  | reopen load owner status moved records =>
    obtain ⟨-, u, happly, rfl⟩ := commit_trip hc
    subst moved
    exact h.recordTrip (.change (get load) records.fromStatus records.toStatus
      (.inr ⟨_, _, rfl, rfl, by simp [status, allowedTransitions]⟩)) happly
  | complete load owner status ended moved records =>
    obtain ⟨-, u, happly, rfl⟩ := commit_trip hc
    subst moved
    exact h.recordTrip (.change (get load) records.fromStatus records.toStatus
      (.inr ⟨_, _, rfl, rfl, by simp [status, allowedTransitions]⟩)) happly

theorem ExpenseDeed.trails {call : ExpenseCall} (deed : ExpenseDeed s env user call ws)
    (h : Trails s) (hc : ws.foldlM (Store.flush now) s = .ok s') : Trails s' := by
  have get : ∀ {j : Int} {r : ExpenseReport}, loadVisibleReport s j user = .ok r →
      s.reports.get j = some r := fun load => (loadVisibleReport_eq_ok.mp load).2.1
  cases deed with
  | create load owner reportable single new records =>
    obtain ⟨-, u, happly, rfl⟩ := commit_report hc
    refine h.recordReport (.create ?_ records.fromStatus ?_) happly
    · rw [new.status]
      rfl
    · rw [new.status]
      exact records.toStatus
  | update load centers assigned records =>
    obtain ⟨-, u, happly, rfl⟩ := commit_report hc
    have hload := (loadEditableReport_eq_ok.mp load).1
    refine h.recordReport (.change (get hload) records.fromStatus ?_ (.inl ?_)) happly
    · rw [assigned]
      exact records.toStatus
    · rw [assigned]
  | addItem load | updateItem int4 _ load | deleteItem int4 _ load =>
    obtain ⟨u, u', -, -, hreport, rfl⟩ := commit_edit hc
    exact h.edit (get (loadEditableReport_eq_ok.mp load).1) hreport
  | submit load owner status trip completed present centers items recalc approver moved records =>
    obtain ⟨-, u, happly, rfl⟩ := commit_report hc
    subst moved
    exact h.recordReport (.change (get load) records.fromStatus records.toStatus
      (.inr ⟨_, _, rfl, rfl, by simp [status, expenseAllowedTransitions]⟩)) happly
  | approve load approver status trip completed moved settled records records' =>
    obtain ⟨u, u', hreport, htrip, rfl⟩ := commit_approve hc
    subst moved settled
    refine Trails.recordTrip (h.recordReport (.change (get load) records.fromStatus records.toStatus
      (.inr ⟨_, _, rfl, rfl, by simp [status, expenseAllowedTransitions]⟩)) hreport) ?_ htrip
    exact .change trip records'.fromStatus records'.toStatus
      (.inr ⟨_, _, rfl, rfl, by simp [completed, allowedTransitions]⟩)
  | reject load approver status given moved records =>
    obtain ⟨-, u, happly, rfl⟩ := commit_report hc
    subst moved
    exact h.recordReport (.change (get load) records.fromStatus records.toStatus
      (.inr ⟨_, _, rfl, rfl, by simp [status, expenseAllowedTransitions]⟩)) happly
  | reopen load owner status moved records =>
    obtain ⟨-, u, happly, rfl⟩ := commit_report hc
    subst moved
    exact h.recordReport (.change (get load) records.fromStatus records.toStatus
      (.inr ⟨_, _, rfl, rfl, by simp [status, expenseAllowedTransitions]⟩)) happly

theorem Trails.step {req : DeskRequest} (h : Trails s) (hstep : desk.step s req = .ok s') :
    Trails s' := by
  obtain ⟨p, hplan, hcommit⟩ := bind_eq_ok.mp hstep
  obtain ⟨user, -, deed⟩ := deed_of_plan hplan
  have hc := Plan.commit_eq_ok.mp hcommit
  generalize req.call = call at deed
  cases deed with
  | trip deed => exact deed.trails h hc
  | expense deed => exact deed.trails h hc

end Biztrip.Desk
