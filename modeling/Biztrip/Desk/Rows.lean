import Biztrip.Desk.Effect

/-!
# The rows a desk request leaves

`tripRows`, `reportRows` and `itemRows` are the rows that a plan computes, with their
keys. After a serial step every row was there before, under its key, or is one of
them (`Deed.rows`). So a condition on single rows is an invariant once it holds of
the computed rows, deed by deed.
-/

namespace Biztrip.Desk

open Biztrip.Lib Trips Expenses

def tripRows (s : Store) (ws : List Write) : List (Int × Trip) :=
  ws.filterMap fun
    | .trip w => w.keyed s.trips
    | _ => none

def reportRows (s : Store) (ws : List Write) : List (Int × ExpenseReport) :=
  ws.filterMap fun
    | .report w => w.keyed s.reports
    | _ => none

def itemRows (s : Store) (ws : List Write) : List (Int × ExpenseItem) :=
  ws.filterMap fun
    | .item w => w.keyed s.items
    | _ => none

section
variable {s : Store} {env : Env} {entityType : EntityType} {entity : EntityRef} {tr : Transition}
  {w : RowWrite Trip} {w' : RowWrite ExpenseReport} {w'' : RowWrite ExpenseItem} {ws : List Write}

/-- A history computes no row. -/
theorem rows_history :
    tripRows s (recordTransition env entityType entity tr) = [] ∧
      reportRows s (recordTransition env entityType entity tr) = [] ∧
      itemRows s (recordTransition env entityType entity tr) = [] := by
  unfold recordTransition Transition.notificationWrites
  rcases tr.notify with _ | n
  · exact ⟨rfl, rfl, rfl⟩
  · by_cases hn : n.userId = tr.actorId
    · simp only [hn, if_true]
      exact ⟨rfl, rfl, rfl⟩
    · simp only [hn, if_false]
      exact ⟨rfl, rfl, rfl⟩

@[simp] theorem tripRows_history : tripRows s (recordTransition env entityType entity tr) = [] :=
  rows_history.1

@[simp] theorem reportRows_history :
    reportRows s (recordTransition env entityType entity tr) = [] :=
  rows_history.2.1

@[simp] theorem itemRows_history : itemRows s (recordTransition env entityType entity tr) = [] :=
  rows_history.2.2

@[simp] theorem tripRows_trip :
    tripRows s (.trip w :: ws) = (w.keyed s.trips).toList ++ tripRows s ws := by
  unfold tripRows
  rcases h : w.keyed s.trips with _ | row <;> simp [h]

@[simp] theorem tripRows_report : tripRows s (.report w' :: ws) = tripRows s ws := rfl

@[simp] theorem tripRows_item : tripRows s (.item w'' :: ws) = tripRows s ws := rfl

@[simp] theorem reportRows_trip : reportRows s (.trip w :: ws) = reportRows s ws := rfl

@[simp] theorem reportRows_report :
    reportRows s (.report w' :: ws) = (w'.keyed s.reports).toList ++ reportRows s ws := by
  unfold reportRows
  rcases h : w'.keyed s.reports with _ | row <;> simp [h]

@[simp] theorem reportRows_item : reportRows s (.item w'' :: ws) = reportRows s ws := rfl

@[simp] theorem itemRows_trip : itemRows s (.trip w :: ws) = itemRows s ws := rfl

@[simp] theorem itemRows_report : itemRows s (.report w' :: ws) = itemRows s ws := rfl

@[simp] theorem itemRows_item :
    itemRows s (.item w'' :: ws) = (w''.keyed s.items).toList ++ itemRows s ws := by
  unfold itemRows
  rcases h : w''.keyed s.items with _ | row <;> simp [h]

@[simp] theorem tripRows_nil : tripRows s [] = [] := rfl

@[simp] theorem reportRows_nil : reportRows s [] = [] := rfl

@[simp] theorem itemRows_nil : itemRows s [] = [] := rfl

@[simp] theorem tripRows_append {ws' : List Write} :
    tripRows s (ws ++ ws') = tripRows s ws ++ tripRows s ws' := List.filterMap_append

@[simp] theorem reportRows_append {ws' : List Write} :
    reportRows s (ws ++ ws') = reportRows s ws ++ reportRows s ws' := List.filterMap_append

@[simp] theorem itemRows_append {ws' : List Write} :
    itemRows s (ws ++ ws') = itemRows s ws ++ itemRows s ws' := List.filterMap_append

end

/-! ## One step -/

/-- Where the rows of the desk come from after the statements `ws`. -/
structure DrawnBy (s s' : Store) (ws : List Write) : Prop where
  trips : Drawn s.trips s'.trips (tripRows s ws)
  reports : Drawn s.reports s'.reports (reportRows s ws)
  items : Drawn s.items s'.items (itemRows s ws)

variable {s s' : Store} {env : Env} {user : CurrentUser} {now : Instant} {ws : List Write}

theorem drawnBy_trip {w : RowWrite Trip} {entityType : EntityType} {entity : EntityRef}
    {tr : Transition} (hw : w.Loaded s.trips)
    (hc : (Write.trip w :: recordTransition env entityType entity tr).foldlM (Store.flush now) s =
      .ok s') : DrawnBy s s' (.trip w :: recordTransition env entityType entity tr) := by
  obtain ⟨-, u, happly, rfl⟩ := commit_trip hc
  exact ⟨by simpa using hw.drawn happly, by simpa using .refl _, by simpa using .refl _⟩

theorem drawnBy_report {w : RowWrite ExpenseReport} {entityType : EntityType} {entity : EntityRef}
    {tr : Transition} (hw : w.Loaded s.reports)
    (hc : (Write.report w :: recordTransition env entityType entity tr).foldlM (Store.flush now) s =
      .ok s') : DrawnBy s s' (.report w :: recordTransition env entityType entity tr) := by
  obtain ⟨-, u, happly, rfl⟩ := commit_report hc
  exact ⟨by simpa using .refl _, by simpa using hw.drawn happly, by simpa using .refl _⟩

theorem drawnBy_edit {w : RowWrite ExpenseItem} {w' : RowWrite ExpenseReport}
    (hw : w.Loaded s.items) (hw' : w'.Loaded s.reports)
    (hc : [Write.item w, .report w'].foldlM (Store.flush now) s = .ok s') :
    DrawnBy s s' [.item w, .report w'] := by
  obtain ⟨u, u', -, happly, happly', rfl⟩ := commit_edit hc
  exact ⟨by simpa using .refl _, by simpa using hw'.drawn happly', by simpa using hw.drawn happly⟩

theorem TripDeed.rows {call : TripCall} (deed : TripDeed s env user call ws)
    (hc : ws.foldlM (Store.flush now) s = .ok s') : DrawnBy s s' ws := by
  cases deed with
  | create new records => exact drawnBy_trip trivial hc
  | delete load owner status =>
    obtain ⟨-, rfl⟩ := commit_delete_trip hc
    exact ⟨fun k t hk => .inl (Table.get_delete_eq_some hk).2, .refl _, .refl _⟩
  | update load | submit load | approve load | reject load | reopen load | complete load =>
    exact drawnBy_trip (loadVisibleTrip_eq_ok.mp load).2.1 hc

theorem ExpenseDeed.rows {call : ExpenseCall} (deed : ExpenseDeed s env user call ws)
    (hc : ws.foldlM (Store.flush now) s = .ok s') : DrawnBy s s' ws := by
  cases deed with
  | create load owner reportable single new records => exact drawnBy_report trivial hc
  | update load =>
    have hload := (loadEditableReport_eq_ok.mp load).1
    exact drawnBy_report (loadVisibleReport_eq_ok.mp hload).2.1 hc
  | addItem load new flush recalc =>
    have hload := (loadEditableReport_eq_ok.mp load).1
    exact drawnBy_edit trivial (loadVisibleReport_eq_ok.mp hload).2.1 hc
  | updateItem int4 get load checked assigned flush recalc =>
    have hload := (loadEditableReport_eq_ok.mp load).1
    exact drawnBy_edit get (loadVisibleReport_eq_ok.mp hload).2.1 hc
  | deleteItem int4 get load flush recalc =>
    have hload := (loadEditableReport_eq_ok.mp load).1
    exact drawnBy_edit trivial (loadVisibleReport_eq_ok.mp hload).2.1 hc
  | submit load | reject load | reopen load =>
    exact drawnBy_report (loadVisibleReport_eq_ok.mp load).2.1 hc
  | @approve reportId r r' t t' tr tr' load approver status trip =>
    obtain ⟨u, u', happly, happly', rfl⟩ := commit_approve hc
    have hreport : (RowWrite.update reportId r r').Loaded s.reports :=
      (loadVisibleReport_eq_ok.mp load).2.1
    have htrip : (RowWrite.update r.tripId t t').Loaded s.trips := trip
    exact ⟨by simpa using htrip.drawn happly', by simpa using hreport.drawn happly,
      by simpa using .refl _⟩

theorem Deed.rows {call : DeskCall} (deed : Deed s env user call ws)
    (hc : ws.foldlM (Store.flush now) s = .ok s') : DrawnBy s s' ws := by
  cases deed with
  | trip deed => exact deed.rows hc
  | expense deed => exact deed.rows hc

end Biztrip.Desk
